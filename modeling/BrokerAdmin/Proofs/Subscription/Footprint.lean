import BrokerAdmin.Proofs.Broker.Movement
import BrokerAdmin.Proofs.Broker.Pausing
import BrokerAdmin.Proofs.Subscription.Reach

/-!
# What an operation on a topic may change

All addresses share one index of queues, and an operation that loops over the queues of an address works
on that index. `Confined` says, for each operation, what it may change all the same, and so what it leaves
alone. It holds of every reachable broker, wherever a loop stops: a queue that an address lists is bound
to no other, so the loops of an operation never touch what belongs to another address.
-/

namespace BrokerAdmin

namespace Broker

/-- The broker without several queues of an address, which the address lists no longer. -/
def withoutQueues (b : Broker) (address : String) (gone : List String) : Broker :=
  { b with
    queues := gone.foldl Catalog.erase b.queues
    addresses := b.addresses.modify address fun a =>
      { a with queues := a.queues.filter (· ∉ gone) } }

/-- The queues that are left are as before. -/
theorem get?_withoutQueues (b : Broker) (address : String) (gone : List String) (name : String) :
    (b.withoutQueues address gone).queues.get? name =
      if name ∈ gone then none else b.queues.get? name := by
  unfold withoutQueues
  dsimp only
  induction gone generalizing b with
  | nil => rfl
  | cons first gone ih =>
    have hrest := ih { b with queues := b.queues.erase first }
    dsimp only at hrest
    rw [List.foldl_cons, hrest, Catalog.get?_erase]
    by_cases hfirst : name = first <;> simp [hfirst]

/-- When no queue goes, everything stays. -/
theorem withoutQueues_nil (b : Broker) (address : String) : b.withoutQueues address [] = b := by
  unfold withoutQueues
  rw [Catalog.modify_eq_self (by simp), List.foldl_nil]

/-- One more queue goes that is not the placeholder. -/
theorem withoutQueue_withoutQueues {b : Broker} {address : String} {a : Address}
    (ha : b.addresses.get? address = some a) (gone : List String) {name : String}
    (hname : a.placeholder ≠ some name) :
    (b.withoutQueues address gone).withoutQueue address name =
      b.withoutQueues address (gone ++ [name]) := by
  have hkept : (a.queues.filter (· ∉ gone)).filter (fun queue => queue != name) =
      a.queues.filter (· ∉ gone ++ [name]) := by
    rw [List.filter_filter]
    refine List.filter_congr fun queue _ => ?_
    by_cases hqueue : queue = name <;> simp [hqueue]
  have haddresses : ((b.withoutQueues address gone).withoutQueue address name).addresses =
      (b.withoutQueues address (gone ++ [name])).addresses := by
    refine Catalog.ext_get? fun other => ?_
    by_cases hother : other = address
    -- unbinding a queue takes the placeholder only when it is that queue
    · subst hother
      simp only [withoutQueue, withoutQueues, Catalog.get?_modify, if_true, ha, Option.map_some,
        Address.unbind, hkept, if_neg hname]
    · simp [withoutQueues, withoutQueue, hother]
  have hqueues : ((b.withoutQueues address gone).withoutQueue address name).queues =
      (b.withoutQueues address (gone ++ [name])).queues := by
    simp [withoutQueues, withoutQueue, List.foldl_append]
  unfold withoutQueue at haddresses hqueues ⊢
  dsimp only at haddresses hqueues ⊢
  rw [haddresses, hqueues]
  rfl

end Broker

namespace Subscription

open Broker (Action)

/-- A queue is as before, or it is bound to the address and has lost waiting messages only. -/
def Weeded (address : String) (before after : Option Queue) : Prop :=
  after = before ∨ ∃ q messages, before = some q ∧ q.address = address ∧
    messages.Sublist q.messages ∧ after = some { q with messages := messages }

/-- A queue that an operation on an address may destroy together with the other ones. -/
def Droppable (b : Broker) (address name : String) : Prop :=
  ∃ a, b.addresses.get? address = some a ∧ name ∈ a.queues ∧ a.placeholder ≠ some name

/-- What an operation on an address may make of a broker; all that is not written here is as before. The
queue of a durable subscription may be bound to any address, for it is found by its name. -/
def Confined (b : Broker) (address : String) (b' : Broker) : Operation → Prop
  | .list .. | .listMessages .. | .countMessages .. => b' = b
  | .removeMessages _ => ∃ queues, b' = { b with queues := queues } ∧
      ∀ name, Weeded address (b.queues.get? name) (queues.get? name)
  | .dropAll => ∃ gone journal, b' = { b.withoutQueues address gone with journal := journal } ∧
      ∀ name ∈ gone, Droppable b address name
  | .dropDurable client name => ∃ journal, b' = { b with journal := journal } ∨
      ∃ q, b.queues.get? (durableQueueName (some client) name) = some q ∧
        b' = { b.withoutQueue q.address (durableQueueName (some client) name) with journal := journal }
  | .pause _ | .resume => ∃ pause journal, b' =
      { b with addresses := b.addresses.modify address fun a => { a with pause := pause }
               journal := journal }

variable {b : Broker} {address : String}

/-- A queue that is bound to the address may lose waiting messages, also after others. -/
theorem Weeded.remove {before : Option Queue} {q : Queue} (h : Weeded address before (some q))
    (hbound : ∀ original, before = some original → original.address = address)
    (kept : Message → Bool) :
    Weeded address before (some { q with messages := q.messages.filter kept }) := by
  rcases h with rfl | ⟨original, messages, hbefore, haddress, hsublist, heq⟩
  · exact Or.inr ⟨q, _, rfl, hbound q rfl, List.filter_sublist, rfl⟩
  · obtain rfl := Option.some.inj heq
    exact Or.inr ⟨original, _, hbefore, haddress, List.filter_sublist.trans hsublist, rfl⟩

/-- Removing messages from a queue that the address lists changes nothing else. -/
theorem confined_removeMessages (hb : b.WellFormed) {a : Address} {name : String}
    (ha : b.addresses.get? address = some a) (hname : name ∈ a.queues) {selector : Option String}
    {b' : Broker} (h : Confined b address b' (.removeMessages selector)) (filter : Option String) :
    Confined b address (b'.removeMessages name filter).2 (.removeMessages selector) := by
  obtain ⟨queues, rfl, hqueues⟩ := h
  rcases Broker.removeMessages_cases { b with queues := queues } name filter with
    ⟨e, heq⟩ | ⟨q, expr, hq, -, heq⟩
  · rw [heq]
    exact ⟨queues, rfl, hqueues⟩
  · rw [heq]
    refine ⟨_, rfl, fun other => ?_⟩
    rw [Catalog.get?_insert]
    split
    next hother =>
      subst hother
      have hweeded := hqueues other
      rw [hq] at hweeded
      exact hweeded.remove (fun original => hb.address_of_mem ha hname) _
    next => exact hqueues other

/-- Destroying a queue that may go changes nothing else than the list of the address. -/
theorem confined_dropAll (hb : b.WellFormed) {name : String} (hname : Droppable b address name)
    {b' : Broker} (h : Confined b address b' .dropAll) (removeConsumers : Bool) :
    Confined b address (b'.destroyQueue name removeConsumers).2 .dropAll := by
  obtain ⟨gone, journal, rfl, hgone⟩ := h
  rcases Broker.destroyQueue_eq _ name removeConsumers with heq | ⟨q, hq, heq⟩
  · rw [heq]
    exact ⟨gone, _, rfl, hgone⟩
  · obtain ⟨a, ha, hlisted, hplaceholder⟩ := hname
    have hq : (b.withoutQueues address gone).queues.get? name = some q := hq
    rw [Broker.get?_withoutQueues] at hq
    split at hq
    next => contradiction
    -- what is still there is as it was at first, so it is bound to the address that listed it then
    next =>
      rw [heq, hb.address_of_mem ha hlisted hq]
      refine ⟨gone ++ [name], journal ++ [.destroyQueue name removeConsumers], ?_, ?_⟩
      · rw [← Broker.withoutQueue_withoutQueues ha gone hplaceholder]
        rfl
      · rw [List.forall_mem_append]
        exact ⟨hgone, by simpa using ⟨a, ha, hlisted, hplaceholder⟩⟩

/-- Destroying the queue of a durable subscription changes nothing else than its address. -/
theorem confined_dropDurable {client name : String} {b' : Broker}
    (h : Confined b address b' (.dropDurable client name)) (removeConsumers : Bool) :
    Confined b address (b'.destroyQueue (durableQueueName (some client) name) removeConsumers).2
      (.dropDurable client name) := by
  obtain ⟨journal, rfl | ⟨q, hq, rfl⟩⟩ := h
  · rcases Broker.destroyQueue_eq _ (durableQueueName (some client) name) removeConsumers with
      heq | ⟨q, hq, heq⟩
    · exact ⟨_, Or.inl heq⟩
    · exact ⟨_, Or.inr ⟨q, hq, heq⟩⟩
  · rcases Broker.destroyQueue_eq _ (durableQueueName (some client) name) removeConsumers with
      heq | ⟨r, hr, heq⟩
    · exact ⟨_, Or.inr ⟨q, hq, heq⟩⟩
    -- the queue is gone already
    · simp [Broker.withoutQueue] at hr

/-- An action that is permitted to an operation changes nothing that the operation may not change. -/
theorem confined_perform (hb : b.WellFormed) {operation : Operation} {action : Action}
    (haction : Permitted b address operation action) {b' : Broker}
    (h : Confined b address b' operation) : Confined b address (b'.perform action) operation := by
  cases haction with
  | dropDurable => exact confined_dropDurable h true
  | dropAll ha hname hplaceholder => exact confined_dropAll hb ⟨_, ha, hname, hplaceholder⟩ h false
  | removeMessages ha hname => exact confined_removeMessages hb ha hname h _
  | @pause persist =>
    obtain ⟨pause, journal, rfl⟩ := h
    refine ⟨some (persist || pause.getD false), journal ++ [.pauseAddress address persist], ?_⟩
    simp only [Broker.perform, Broker.pauseAddress_state, Catalog.modify_modify]
    rfl
  | resume =>
    obtain ⟨pause, journal, rfl⟩ := h
    refine ⟨none, journal ++ [.resumeAddress address], ?_⟩
    simp only [Broker.perform, Broker.resumeAddress_state, Catalog.modify_modify]
    rfl

/-- An operation may leave everything as it is. -/
theorem confined_self (b : Broker) (address : String) (operation : Operation) :
    Confined b address b operation := by
  have hpause : b.addresses.modify address (fun a => { a with pause := b.pauseState address }) =
      b.addresses :=
    Catalog.modify_eq_self fun a ha => by simp [Broker.pauseState, ha]
  cases operation with
  | list | listMessages | countMessages => rfl
  | dropDurable => exact ⟨b.journal, Or.inl rfl⟩
  | dropAll => exact ⟨[], b.journal, by rw [Broker.withoutQueues_nil], by simp⟩
  | removeMessages => exact ⟨b.queues, rfl, fun _ => Or.inl rfl⟩
  | pause | resume => exact ⟨b.pauseState address, b.journal, by rw [hpause]⟩

/-- What every operation on an address leaves alone: bridges, the pauses of other addresses, and of the
queues that survive what is delivered and the consumers. -/
structure Spares (b : Broker) (address : String) (b' : Broker) : Prop where
  bridges : b'.bridges = b.bridges
  pauses : ∀ other, other ≠ address → b'.pauseState other = b.pauseState other
  survivors : ∀ name q q', b.queues.get? name = some q → b'.queues.get? name = some q' →
    q'.delivering = q.delivering ∧ q'.consumers = q.consumers

/-- Queues of which some are gone and others as before spare what survives. -/
theorem Spares.of_queues {b b' : Broker} {address : String} (hbridges : b'.bridges = b.bridges)
    (hpauses : ∀ other, other ≠ address → b'.pauseState other = b.pauseState other)
    (hqueues : ∀ name, b'.queues.get? name = none ∨ b'.queues.get? name = b.queues.get? name) :
    Spares b address b' where
  bridges := hbridges
  pauses := hpauses
  survivors name q q' hq hq' := by
    rcases hqueues name with hgone | hsame
    · rw [hgone] at hq'
      contradiction
    · rw [hsame, hq] at hq'
      obtain rfl := Option.some.inj hq'
      exact ⟨rfl, rfl⟩

/-- An operation that changes only what it may change spares what every operation does. -/
theorem Confined.spares {b' : Broker} {operation : Operation} (h : Confined b address b' operation) :
    Spares b address b' := by
  cases operation with
  | list | listMessages | countMessages =>
    obtain rfl : b' = b := h
    exact .of_queues rfl (fun _ _ => rfl) fun _ => Or.inr rfl
  | dropDurable client name =>
    obtain ⟨journal, rfl | ⟨q, -, rfl⟩⟩ := h
    · exact .of_queues rfl (fun _ _ => rfl) fun _ => Or.inr rfl
    · refine .of_queues rfl (fun other _ => ?_) fun other => ?_
      · exact Broker.pauseState_of_modify (f := fun a => a.unbind _) rfl fun _ _ _ => rfl
      · simp only [Broker.withoutQueue, Catalog.get?_erase]
        exact ite_eq_or_eq _ _ _
  | dropAll =>
    obtain ⟨gone, journal, rfl, -⟩ := h
    refine .of_queues rfl (fun other _ => ?_) fun other => ?_
    · exact Broker.pauseState_of_modify
        (f := fun a => { a with queues := a.queues.filter (· ∉ gone) }) rfl fun _ _ _ => rfl
    · dsimp only
      rw [Broker.get?_withoutQueues]
      exact ite_eq_or_eq _ _ _
  | removeMessages selector =>
    obtain ⟨queues, rfl, hqueues⟩ := h
    refine ⟨rfl, fun _ _ => rfl, fun name q q' hq hq' => ?_⟩
    rcases hqueues name with hsame | ⟨original, messages, horiginal, -, -, hweeded⟩
    · obtain rfl := Option.some.inj (hq'.symm.trans (hsame.trans hq))
      exact ⟨rfl, rfl⟩
    · obtain rfl := Option.some.inj (hq.symm.trans horiginal)
      obtain rfl := Option.some.inj (hq'.symm.trans hweeded)
      exact ⟨rfl, rfl⟩
  | pause | resume =>
    obtain ⟨pause, journal, rfl⟩ := h
    refine .of_queues rfl (fun other hother => ?_) fun _ => Or.inr rfl
    exact Broker.pauseState_of_modify (f := fun a => { a with pause := pause }) rfl
      fun heq => absurd heq hother

/-- Operations on topics change nothing but what they are about, whatever they reply: those that only read
leave the broker and its journal as they are, each of the others is confined to what it may change, and
all of them spare bridges, the pauses of other addresses, and what is delivered from surviving queues and
their consumers. -/
theorem execute_confined (hb : b.Reachable) (address : String) (operation : Operation) :
    (operation.isReadOnly = true → (execute Broker.handle address operation b).2 = b) ∧
      Confined b address (execute Broker.handle address operation b).2 operation ∧
      Spares b address (execute Broker.handle address operation b).2 := by
  obtain ⟨actions, heq, hactions⟩ := execute_performs address operation b
  have hconfined : Confined b address (execute Broker.handle address operation b).2 operation := by
    rw [heq]
    exact Broker.performAll_induction (motive := fun b' => Confined b address b' operation)
      (fun action haction b' h => confined_perform hb.wellFormed (hactions action haction) h)
      (confined_self b address operation)
  refine ⟨fun hread => ?_, hconfined, hconfined.spares⟩
  cases operation with
  | list | listMessages | countMessages => exact hconfined
  | dropDurable | dropAll | removeMessages | pause | resume => contradiction

/-- Dropping all subscriptions of one address leaves the pause of another as it is. -/
theorem execute_confined_other_paused :
    let b := Broker.run [.createTopicWithPlaceholder "t" "keepalive", .createQueue "t" "c.s" {},
      .createQueue "u" "c.r" {}, .pauseAddress "u" true]
    let b' := (execute Broker.handle "t" .dropAll b).2
    b.Reachable ∧ Confined b "t" b' .dropAll ∧ b'.pauseState "u" = some true := by
  intro b b'
  have hb : b.Reachable := ⟨_, rfl⟩
  obtain ⟨-, hconfined, hspares⟩ := execute_confined hb "t" .dropAll
  have hpaused : b.pauseState "u" = some true := by decide +kernel
  exact ⟨hb, hconfined, (hspares.pauses "u" (by decide)).trans hpaused⟩

end Subscription

end BrokerAdmin
