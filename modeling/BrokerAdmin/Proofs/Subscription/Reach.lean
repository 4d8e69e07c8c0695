import BrokerAdmin.Proofs.Broker.WellFormed
import BrokerAdmin.Subscription.Admin

/-!
# How far administration reaches

Each operation on a topic acts on a broker in memory by a sequence of the broker's own actions, up to the
first that fails. `Permitted` lists the actions that an operation may take, with the queues that it may
touch: only the two operations that drop subscriptions destroy queues, and the one that drops them all
spares the placeholder of its address. No operation creates anything.

So the state after administration is again reachable, and what the permitted actions preserve is
preserved by administration.
-/

namespace BrokerAdmin.Subscription

open Broker (Action)

/-- A call to administration, about an address or about a topic by name. -/
inductive Call where
  | onAddress (address : String) (operation : Operation)
  | onTopic (topic : String) (operation : Operation)

namespace Call

/-- The address that a call is about. -/
def address : Call → String
  | onAddress address _ => address
  | onTopic topic _ => topicAddress topic

/-- The operation that is called for. -/
def operation : Call → Operation
  | onAddress _ operation => operation
  | onTopic _ operation => operation

/-- The broker after a call, whatever the reply is. -/
def carryOut (b : Broker) : Call → Broker
  | onAddress address operation => (execute Broker.handle address operation b).2
  | onTopic topic operation => (executeOnTopic Broker.handle topic operation b).2

/-- A call about a topic is one about its address. -/
theorem carryOut_eq (b : Broker) (call : Call) :
    call.carryOut b = (execute Broker.handle call.address call.operation b).2 := by
  cases call <;> rfl

end Call

/-- The broker after several calls, one after the other. -/
def administer (b : Broker) (calls : List Call) : Broker :=
  calls.foldl Call.carryOut b

/-- An action that an operation on an address may take. -/
inductive Permitted (b : Broker) (address : String) : Operation → Action → Prop
  | dropDurable {client name : String} : client ≠ "" → name ≠ "" →
      Permitted b address (.dropDurable client name)
        (.destroyQueue (durableQueueName (some client) name) true)
  | dropAll {a : Address} {name : String} : b.addresses.get? address = some a → name ∈ a.queues →
      a.placeholder ≠ some name → Permitted b address .dropAll (.destroyQueue name false)
  | removeMessages {a : Address} {selector filter : Option String} {name : String} :
      b.addresses.get? address = some a → name ∈ a.queues → Selector.toFilter selector = .ok filter →
        Permitted b address (.removeMessages selector) (.removeMessages name filter)
  | pause {persist : Bool} : Permitted b address (.pause persist) (.pauseAddress address persist)
  | resume : Permitted b address .resume (.resumeAddress address)

/-- The queues of a list are destroyed from the front up to some point. -/
theorem destroyQueues_performs (names : List String) (b : Broker) :
    ∃ done : List String, done <+: names ∧ (destroyQueues Broker.handle names b).2 =
      b.performAll (done.map fun name => .destroyQueue name false) := by
  induction names generalizing b with
  | nil => exact ⟨[], List.nil_prefix, rfl⟩
  | cons name names ih =>
    unfold destroyQueues
    simp only [Broker.handle]
    cases hdestroy : b.destroyQueue name false with
    | mk result after =>
      have hafter : b.perform (.destroyQueue name false) = after := congrArg Prod.snd hdestroy
      cases result with
      | error e => exact ⟨[name], List.cons_prefix_cons.mpr ⟨rfl, List.nil_prefix⟩, hafter.symm⟩
      | ok =>
        obtain ⟨done, hdone, heq⟩ := ih after
        refine ⟨name :: done, List.cons_prefix_cons.mpr ⟨rfl, hdone⟩, heq.trans ?_⟩
        rw [← hafter]
        rfl

/-- Messages are removed from queues of a list, in their order. -/
theorem removeFrom_performs (filter : Option String) (names : List String) (removed : Nat)
    (b : Broker) :
    ∃ done : List String, done.Sublist names ∧ (removeFrom Broker.handle filter removed names b).2 =
      b.performAll (done.map fun name => .removeMessages name filter) := by
  induction names generalizing removed b with
  | nil => exact ⟨[], .slnil, rfl⟩
  | cons name names ih =>
    unfold removeFrom
    split
    next =>
      obtain ⟨done, hdone, heq⟩ := ih removed b
      exact ⟨done, hdone.cons name, heq⟩
    next =>
      simp only [Broker.handle]
      cases hremove : b.removeMessages name filter with
      | mk result after =>
        have hafter : b.perform (.removeMessages name filter) = after := congrArg Prod.snd hremove
        cases result with
        | error e => exact ⟨[name], (List.nil_sublist names).cons_cons name, hafter.symm⟩
        | ok count =>
          obtain ⟨done, hdone, heq⟩ := ih (removed + count) after
          refine ⟨name :: done, hdone.cons_cons name, heq.trans ?_⟩
          rw [← hafter]
          rfl

/-- A durable subscription that is found has a client and a name. -/
theorem durableQueue_eq_ok {client name : String} {b : Broker} {queueName : String}
    (h : durableQueue Broker.handle client name b = .ok queueName) :
    client ≠ "" ∧ name ≠ "" ∧ queueName = durableQueueName (some client) name := by
  unfold durableQueue at h
  split at h <;> try contradiction
  next hclient =>
    split at h <;> try contradiction
    next hname =>
      dsimp only at h
      split at h <;> try contradiction
      next =>
        refine ⟨?_, ?_, (Except.ok.inj h).symm⟩
        · rintro rfl
          exact hclient rfl
        · rintro rfl
          exact hname rfl

/-- What there is to know of an address that exists. -/
theorem addressControl_eq_ok {address : String} {b : Broker} {control : AddressControl}
    (h : addressControl Broker.handle address b = .ok control) :
    ∃ a, b.addresses.get? address = some a ∧ control.queues = a.queues ∧
      control.placeholder = a.placeholder := by
  unfold addressControl at h
  split at h <;> try contradiction
  next found hfound =>
    obtain ⟨a, ha, heq⟩ := Option.map_eq_some_iff.mp hfound
    obtain rfl := Except.ok.inj h
    subst heq
    exact ⟨a, ha, rfl, rfl⟩

/-- An operation acts on a broker by actions that are permitted to it. -/
theorem execute_performs (address : String) (operation : Operation) (b : Broker) :
    ∃ actions, (execute Broker.handle address operation b).2 = b.performAll actions ∧
      ∀ action ∈ actions, Permitted b address operation action := by
  cases operation with
  | list | listMessages | countMessages => exact ⟨[], rfl, by simp⟩
  | dropDurable client name =>
    change ∃ actions, (dropDurable Broker.handle client name b).2 = b.performAll actions ∧ _
    unfold dropDurable
    split
    next => exact ⟨[], rfl, by simp⟩
    next queueName hqueue =>
      obtain ⟨hclient, hname, rfl⟩ := durableQueue_eq_ok hqueue
      exact ⟨[.destroyQueue _ true], rfl, by simpa using .dropDurable hclient hname⟩
  | dropAll =>
    change ∃ actions, (dropAll Broker.handle address b).2 = b.performAll actions ∧ _
    unfold dropAll
    split
    next => exact ⟨[], rfl, by simp⟩
    next control hcontrol =>
      obtain ⟨a, ha, hqueues, hplaceholder⟩ := addressControl_eq_ok hcontrol
      obtain ⟨done, hdone, heq⟩ := destroyQueues_performs
        (control.queues.filter fun name => control.placeholder != some name) b
      refine ⟨_, heq, fun action haction => ?_⟩
      obtain ⟨name, hname, rfl⟩ := List.mem_map.mp haction
      have hname := hdone.subset hname
      rw [hqueues, hplaceholder, List.mem_filter] at hname
      exact .dropAll ha hname.1 (by simpa using hname.2)
  | removeMessages selector =>
    change ∃ actions, (removeMessages Broker.handle selector address b).2 = b.performAll actions ∧ _
    unfold removeMessages
    split
    next => exact ⟨[], rfl, by simp⟩
    next filter hfilter =>
      split
      next => exact ⟨[], rfl, by simp⟩
      next control hcontrol =>
        obtain ⟨a, ha, hqueues, -⟩ := addressControl_eq_ok hcontrol
        obtain ⟨done, hdone, heq⟩ := removeFrom_performs filter control.queues 0 b
        refine ⟨_, heq, fun action haction => ?_⟩
        obtain ⟨name, hname, rfl⟩ := List.mem_map.mp haction
        exact .removeMessages ha (hqueues ▸ hdone.subset hname) hfilter
  | pause persist => exact ⟨[.pauseAddress address persist], rfl, by simpa using .pause⟩
  | resume => exact ⟨[.resumeAddress address], rfl, by simpa using .resume⟩

/-- Administration leads from a reachable broker to another. -/
theorem reachable_carryOut {b : Broker} (hb : b.Reachable) (call : Call) :
    (call.carryOut b).Reachable := by
  obtain ⟨actions, heq, -⟩ := execute_performs call.address call.operation b
  rw [call.carryOut_eq, heq]
  exact hb.performAll actions

end BrokerAdmin.Subscription
