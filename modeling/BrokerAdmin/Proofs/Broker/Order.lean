import BrokerAdmin.Proofs.Broker.Movement
import Mathlib.Data.List.Nodup
import Mathlib.Data.List.Perm.Subperm

/-!
# The order of messages

Each message is sent under the next identifier. A queue keeps its messages in the order in which they came,
those in delivery before those that wait, so their identifiers increase along the queue. Over a whole run
the identifiers that are received from a queue increase too, also when the queue is destroyed meanwhile and
another is created under its name, and no message is received from it twice. An identifier stands for at
most one message in delivery, so acknowledging takes exactly one message from a queue.

Identifiers are natural numbers here. The last one given out is never greater than the number of messages
sent, so it fits a counter of 64 bits as long as fewer than `2 ^ 64` messages are sent.
-/

namespace BrokerAdmin

namespace Queue

/-- All messages of a queue, those in delivery before those that wait. -/
def line (q : Queue) : List Message :=
  q.delivering ++ q.messages

/-- The identifiers of the messages of a queue increase, from 1 at least to the last one given out. -/
structure InOrder (q : Queue) (last : Nat) : Prop where
  increasing : q.line.Pairwise fun m m' => m.id < m'.id
  bounds : ∀ m ∈ q.line, 1 ≤ m.id ∧ m.id ≤ last

/-- A new queue is in order. -/
theorem inOrder_create (address : String) (options : QueueOptions) (last : Nat) :
    (create address options).InOrder last where
  increasing := List.Pairwise.nil
  bounds := nofun

variable {q q' : Queue} {routed acknowledged removed : List Message}

/-- Messages come to a queue at its end only, and those that stay keep their order. -/
theorem Moves.line_sublist (h : q.Moves routed acknowledged removed q') :
    q'.line.Sublist (q.line ++ routed) := by
  unfold line
  cases h with
  | attach consumers => simp
  | enter m => simp [append]
  | deliver hmessages => simp [hmessages]
  | acknowledge id => simp
  | remove selected => simp

/-- What waits in a queue waited before or has come to its end. -/
theorem Moves.messages_sublist (h : q.Moves routed acknowledged removed q') :
    q'.messages.Sublist (q.messages ++ routed) := by
  cases h with
  | attach consumers => simp
  | enter m => simp [append]
  | deliver hmessages => simp [hmessages]
  | acknowledge id => simp
  | remove selected => simp

/-- A queue stays in order when nothing but a message under the next identifier comes to it. -/
theorem InOrder.moves {last last' : Nat} (h : q.InOrder last)
    (hmoves : q.Moves routed acknowledged removed q') (hlast : last ≤ last')
    (hrouted : routed = [] ∨ ∃ m, routed = [m] ∧ m.id = last + 1 ∧ last' = last + 1) :
    q'.InOrder last' := by
  have hline : (q.line ++ routed).Pairwise (fun m m' => m.id < m'.id) ∧
      ∀ m ∈ q.line ++ routed, 1 ≤ m.id ∧ m.id ≤ last' := by
    rcases hrouted with rfl | ⟨m, rfl, hid, rfl⟩
    · rw [List.append_nil]
      refine ⟨h.increasing, fun m hm => ?_⟩
      obtain ⟨hpositive, hbound⟩ := h.bounds m hm
      exact ⟨hpositive, Nat.le_trans hbound hlast⟩
    · constructor
      · refine List.pairwise_append.mpr ⟨h.increasing, List.pairwise_singleton _ _, ?_⟩
        intro first hfirst second hsecond
        obtain rfl := List.mem_singleton.mp hsecond
        have hbound := (h.bounds first hfirst).2
        omega
      · intro other hother
        rcases List.mem_append.mp hother with hold | hnew
        · have hbounds := h.bounds other hold
          omega
        · obtain rfl := List.mem_singleton.mp hnew
          omega
  exact ⟨hline.1.sublist hmoves.line_sublist, fun m hm => hline.2 m (hmoves.line_sublist.subset hm)⟩

/-- A queue in order holds no more messages than identifiers have been given out. -/
theorem InOrder.length_line_le {last : Nat} (h : q.InOrder last) : q.line.length ≤ last := by
  have hnodup : (q.line.map Message.id).Nodup :=
    List.pairwise_map.mpr (h.increasing.imp fun hlt => Nat.ne_of_lt hlt)
  have hsubset : q.line.map Message.id ⊆ List.range' 1 last := by
    intro id hid
    obtain ⟨m, hm, rfl⟩ := List.mem_map.mp hid
    have hbounds := h.bounds m hm
    exact List.mem_range'_1.mpr (by omega)
  have hlength := (hnodup.subperm hsubset).length_le
  rwa [List.length_map, List.length_range'] at hlength

/-- In a queue in order, the message in front has an identifier below those that wait behind it. -/
theorem InOrder.front_lt {last : Nat} (h : q.InOrder last) {m : Message} {rest : List Message}
    (hmessages : q.messages = m :: rest) : m.id ≤ last ∧ ∀ other ∈ rest, m.id < other.id := by
  obtain ⟨hincreasing, hbounds⟩ := h
  unfold line at hincreasing hbounds
  rw [hmessages] at hincreasing hbounds
  refine ⟨(hbounds m (by simp)).2, ?_⟩
  exact (List.pairwise_cons.mp (List.pairwise_append.mp hincreasing).2.1).1

/-- In a queue in order, exactly one message in delivery has the identifier of one that has it. -/
theorem InOrder.filter_delivering {last id : Nat} (h : q.InOrder last) {m : Message}
    (hm : m ∈ q.delivering) (hid : m.id = id) :
    ∃ before after, q.delivering = before ++ m :: after ∧
      q.delivering.filter (fun other => other.id != id) = before ++ after := by
  subst hid
  obtain ⟨before, after, hsplit⟩ := List.append_of_mem hm
  have hdelivering : q.delivering.Pairwise fun m m' => m.id < m'.id :=
    (List.pairwise_append.mp h.increasing).1
  rw [hsplit] at hdelivering
  obtain ⟨-, htail, hbefore⟩ := List.pairwise_append.mp hdelivering
  have hafter := (List.pairwise_cons.mp htail).1
  have hkept : ∀ other ∈ before ++ after, (other.id != m.id) = true := by
    intro other hother
    rw [bne_iff_ne]
    rcases List.mem_append.mp hother with hfirst | hsecond
    · exact Nat.ne_of_lt (hbefore other hfirst m List.mem_cons_self)
    · exact Nat.ne_of_gt (hafter other hsecond)
  refine ⟨before, after, hsplit, ?_⟩
  rw [hsplit, List.filter_append, List.filter_cons_of_neg (by simp), ← List.filter_append]
  exact List.filter_eq_self.mpr hkept

end Queue

namespace Broker

/-! ### Identifiers -/

/-- Whether an action sends a message. -/
def Action.isSend : Action → Bool
  | .send .. => true
  | _ => false

/-- The number of messages that several actions send. -/
def sends (actions : List Action) : Nat :=
  actions.countP Action.isSend

/-- A message that is sent to an address uses up an identifier. -/
theorem lastMessageId_send (b : Broker) (address : String) (m : Message) :
    (b.send address m).2.lastMessageId =
      if (b.addresses.get? address).isSome then b.lastMessageId + 1 else b.lastMessageId := by
  unfold send queueNames
  cases b.addresses.get? address <;> rfl

/-- Creating a topic uses up no identifier. -/
theorem lastMessageId_createTopicWithPlaceholder (b : Broker) (address placeholder : String) :
    (b.createTopicWithPlaceholder address placeholder).2.lastMessageId = b.lastMessageId := by
  rcases b.createTopic_cases address placeholder with heq | ⟨-, heq | ⟨-, heq⟩⟩ <;> rw [heq]
  · rw [withAddress]
  · rw [withTopic]

/-- Only sending uses up identifiers. -/
theorem lastMessageId_perform_of_not_send (b : Broker) {action : Action} (h : action.isSend = false) :
    (b.perform action).lastMessageId = b.lastMessageId := by
  cases action with
  | send => contradiction
  | createAddress address =>
    change (b.createAddress address).2.lastMessageId = _
    unfold createAddress
    split <;> rfl
  | createTopic address => exact b.lastMessageId_createTopicWithPlaceholder address address
  | createTopicWithPlaceholder address placeholder =>
    exact b.lastMessageId_createTopicWithPlaceholder address placeholder
  | createQueue address name options =>
    change (b.createQueue address name options).2.lastMessageId = _
    rcases b.createQueue_cases address name options with ⟨e, heq⟩ | ⟨-, heq⟩
    · rw [heq]
    · rw [heq]
      rfl
  | receive name =>
    change (b.receive name).2.lastMessageId = _
    rcases b.receive_cases name with ⟨result, heq, -⟩ | ⟨q, m, rest, -, -, heq⟩ <;> rw [heq]
  | acknowledge name id =>
    change (b.acknowledge name id).2.lastMessageId = _
    rcases b.acknowledge_cases name id with ⟨e, heq⟩ | ⟨q, -, -, heq⟩ <;> rw [heq]
  | removeMessages name filter =>
    change (b.removeMessages name filter).2.lastMessageId = _
    rcases b.removeMessages_cases name filter with ⟨e, heq⟩ | ⟨q, expr, -, -, heq⟩ <;> rw [heq]
  | addConsumer name connection session =>
    change (b.addConsumer name connection session).2.lastMessageId = _
    unfold addConsumer
    dsimp only
    split <;> rfl
  | awaitPending =>
    change b.awaitPending.2.lastMessageId = _
    unfold awaitPending
    dsimp only
    split <;> rfl
  | deployBridge spec =>
    change (b.deployBridge spec).2.lastMessageId = _
    unfold deployBridge
    dsimp only
    split <;> rfl
  | destroyBridge name force =>
    change (b.destroyBridge name force).2.lastMessageId = _
    unfold destroyBridge
    dsimp only
    split <;> rfl
  | destroyQueue name removeConsumers =>
    change (b.destroyQueue name removeConsumers).2.lastMessageId = _
    rcases b.destroyQueue_eq name removeConsumers with heq | ⟨q, -, heq⟩ <;> rw [heq] <;> rfl
  | pauseAddress address persist =>
    change (b.pauseAddress address persist).2.lastMessageId = _
    unfold pauseAddress
    dsimp only
    split <;> rfl
  | resumeAddress address =>
    change (b.resumeAddress address).2.lastMessageId = _
    unfold resumeAddress
    dsimp only
    split <;> rfl
  | isStarted | clearPending | clearJournal | setStarted | refuseBridges | failStorage
  | failRemovals => rfl

/-- An action uses up an identifier at most, and only when it sends a message. -/
theorem lastMessageId_perform (b : Broker) (action : Action) :
    b.lastMessageId ≤ (b.perform action).lastMessageId ∧
      (b.perform action).lastMessageId ≤ b.lastMessageId + sends [action] := by
  cases hsend : action.isSend with
  | false =>
    rw [b.lastMessageId_perform_of_not_send hsend]
    omega
  | true =>
    cases action with
    | send address m =>
      have hlast := b.lastMessageId_send address m
      change b.lastMessageId ≤ (b.send address m).2.lastMessageId ∧
        (b.send address m).2.lastMessageId ≤ b.lastMessageId + 1
      split at hlast <;> omega
    | _ => contradiction

/-- No more identifiers are given out than messages are sent. -/
theorem lastMessageId_performAll_le (b : Broker) (actions : List Action) :
    (b.performAll actions).lastMessageId ≤ b.lastMessageId + sends actions := by
  induction actions generalizing b with
  | nil => exact Nat.le_refl _
  | cons action actions ih =>
    have hfirst := (b.lastMessageId_perform action).2
    have hrest := ih (b.perform action)
    have hsends : sends (action :: actions) = sends actions + sends [action] := by
      simp only [sends, List.countP_cons, List.countP_nil]
      omega
    change ((b.perform action).performAll actions).lastMessageId ≤ _
    omega

/-- What is routed into a queue is one message under the next identifier, which it uses up. -/
theorem routedBy_cases (name : String) (b : Broker) (action : Action) :
    routedBy name b action = [] ∨
      ∃ m, routedBy name b action = [m] ∧ m.id = b.lastMessageId + 1 ∧
        (b.perform action).lastMessageId = b.lastMessageId + 1 := by
  cases action with
  | send address m =>
    by_cases hname : name ∈ b.recipients address m
    · refine Or.inr ⟨b.stamped m, by simp [routedBy, hname], rfl, ?_⟩
      change (b.send address m).2.lastMessageId = _
      rw [lastMessageId_send, if_pos]
      unfold recipients at hname
      split at hname
      next a ha => rw [ha, Option.isSome_some]
      next => contradiction
    · exact Or.inl (by simp [routedBy, hname])
  | _ => exact Or.inl rfl

/-! ### Reachable brokers -/

/-- Every queue of a broker is in order. -/
def Ordered (b : Broker) : Prop :=
  ∀ name q, b.queues.get? name = some q → q.InOrder b.lastMessageId

/-- Every action leaves the queues of a well-formed broker in order. -/
theorem Ordered.perform {b : Broker} (h : b.Ordered) (hb : b.WellFormed) (action : Action) :
    (b.perform action).Ordered := by
  intro name q' hq'
  rcases hb.created_or_moved hq' with ⟨-, address, options, rfl⟩ | ⟨q, hq, hmoves⟩
  · exact Queue.inOrder_create address options _
  · apply (h name q hq).moves hmoves (b.lastMessageId_perform action).1
    exact routedBy_cases name b action

/-- Every queue of a reachable broker is in order. -/
theorem Reachable.ordered {b : Broker} (hb : b.Reachable) : b.Ordered := by
  have hboth : b.WellFormed ∧ b.Ordered := by
    apply hb.induction (motive := fun b => b.WellFormed ∧ b.Ordered)
    · exact ⟨wellFormed_start, nofun⟩
    · rintro action b ⟨hwellFormed, hordered⟩
      exact ⟨hwellFormed.perform action, hordered.perform hwellFormed action⟩
  exact hboth.2

/-! ### Receiving -/

/-- The messages that are received in a run from the queues of a name, one after the other. -/
def received (name : String) (actions : List Action) : List Message :=
  collect (receivedBy name) start actions

/-- An action receives nothing from a queue, or it receives the message in front. -/
theorem receivedBy_cases (name : String) (b : Broker) (action : Action) :
    receivedBy name b action = [] ∨
      ∃ q m rest, receivedBy name b action = [m] ∧ b.queues.get? name = some q ∧
        q.messages = m :: rest ∧ (b.perform action).lastMessageId = b.lastMessageId ∧
        (b.perform action).queues.get? name =
          some { q with messages := rest, delivering := q.delivering ++ [m] } := by
  cases action with
  | receive other =>
    rcases b.receive_cases other with ⟨result, heq, hresult⟩ | ⟨q, m, rest, hq, hmessages, heq⟩
    · left
      simp only [receivedBy, heq]
    · by_cases hother : other = name
      · subst hother
        refine Or.inr ⟨q, m, rest, ?_, hq, hmessages, ?_, ?_⟩
        · simp only [receivedBy, heq, if_true]
        · simp only [perform, heq]
        · simp [perform, heq]
      · left
        simp only [receivedBy, heq, if_neg hother]
  | _ => exact Or.inl rfl

/-- Whatever waits in the queue of a name has an identifier above a bound, and so has what is still to come. -/
def WaitsAbove (b : Broker) (name : String) (bound : Nat) : Prop :=
  bound ≤ b.lastMessageId ∧ ∀ q, b.queues.get? name = some q → ∀ m ∈ q.messages, bound < m.id

/-- A bound stays below what waits in a queue, since new messages come under new identifiers. -/
theorem WaitsAbove.perform {b : Broker} {name : String} {bound : Nat} (h : b.WaitsAbove name bound)
    (hb : b.WellFormed) (action : Action) : (b.perform action).WaitsAbove name bound := by
  obtain ⟨hbound, hwaiting⟩ := h
  refine ⟨Nat.le_trans hbound (b.lastMessageId_perform action).1, fun q' hq' m hm => ?_⟩
  rcases hb.created_or_moved hq' with ⟨-, address, options, rfl⟩ | ⟨q, hq, hmoves⟩
  · contradiction
  · rcases List.mem_append.mp (hmoves.messages_sublist.subset hm) with hold | hnew
    · exact hwaiting q hq m hold
    · rcases routedBy_cases name b action with hnone | ⟨sent, hone, hid, -⟩
      · rw [hnone] at hnew
        contradiction
      · rw [hone] at hnew
        obtain rfl := List.mem_singleton.mp hnew
        omega

/-- What is received from a queue comes in the order of its identifiers, above any bound below which nothing
waits. -/
theorem WaitsAbove.collect_receivedBy {b : Broker} {name : String} {bound : Nat}
    (h : b.WaitsAbove name bound) (hb : b.WellFormed) (hordered : b.Ordered) (actions : List Action) :
    (collect (receivedBy name) b actions).Pairwise (fun m m' => m.id < m'.id) ∧
      ∀ m ∈ collect (receivedBy name) b actions, bound < m.id := by
  induction actions generalizing b bound with
  | nil => exact ⟨List.Pairwise.nil, nofun⟩
  | cons action actions ih =>
    have hb' := hb.perform action
    have hordered' := hordered.perform hb action
    rw [collect]
    rcases receivedBy_cases name b action with hnone | ⟨q, m, rest, hone, hq, hmessages, hlast, hafter⟩
    · rw [hnone, List.nil_append]
      exact ih (h.perform hb action) hb' hordered'
    -- the message that is received is the new bound
    · obtain ⟨hid, hrest⟩ := (hordered name q hq).front_lt hmessages
      have hbelow : bound < m.id := h.2 q hq m (by simp [hmessages])
      have habove : (b.perform action).WaitsAbove name m.id := by
        refine ⟨hlast ▸ hid, fun q' hq' other hother => ?_⟩
        obtain rfl := Option.some.inj (hafter.symm.trans hq')
        exact hrest other hother
      obtain ⟨hincreasing, hall⟩ := ih habove hb' hordered'
      rw [hone, List.singleton_append]
      refine ⟨List.pairwise_cons.mpr ⟨hall, hincreasing⟩, fun other hother => ?_⟩
      rcases List.mem_cons.mp hother with rfl | hlater
      · exact hbelow
      · exact Nat.lt_trans hbelow (hall other hlater)

/-! ### All runs -/

/-- One message, of that identifier, has gone from those that a queue has in delivery, and nothing else has
changed. -/
def TakesOne (b b' : Broker) (name : String) (id : Nat) : Prop :=
  ∃ q before m after, b.queues.get? name = some q ∧ q.delivering = before ++ m :: after ∧ m.id = id ∧
    b' = { b with queues := b.queues.insert name { q with delivering := before ++ after } }

/-- Acknowledging in a broker in order takes one message. -/
theorem Ordered.takesOne {b : Broker} (h : b.Ordered) {name : String} {id : Nat}
    (hsuccess : (b.acknowledge name id).1 = .ok ()) : TakesOne b (b.acknowledge name id).2 name id := by
  rcases b.acknowledge_cases name id with ⟨e, heq⟩ | ⟨q, hq, ⟨m, hm, hid⟩, heq⟩
  · rw [heq] at hsuccess
    contradiction
  · obtain ⟨before, after, hsplit, hfilter⟩ := (h name q hq).filter_delivering hm hid
    refine ⟨q, before, m, after, hq, hsplit, hid, ?_⟩
    rw [heq, hfilter]

/-- After every run the messages of each queue, those in delivery first, have increasing identifiers between
1 and the last one given out, of which there are no more than messages sent. Therefore the messages that a
run receives from a queue have increasing identifiers, none of them comes twice, and acknowledging takes
exactly one message. -/
theorem run_keeps_order (actions : List Action) :
    (run actions).Ordered ∧ (run actions).lastMessageId ≤ sends actions ∧
      (∀ name, (received name actions).Pairwise (fun m m' => m.id < m'.id) ∧
        ((received name actions).map Message.id).Nodup) ∧
      ∀ name id, ((run actions).acknowledge name id).1 = .ok () →
        TakesOne (run actions) ((run actions).acknowledge name id).2 name id := by
  have hordered : (run actions).Ordered := Reachable.ordered ⟨actions, rfl⟩
  have hlast : (run actions).lastMessageId ≤ sends actions := by
    have hbound := start.lastMessageId_performAll_le actions
    have hstart : start.lastMessageId = 0 := rfl
    rwa [hstart, Nat.zero_add] at hbound
  refine ⟨hordered, hlast, fun name => ?_, fun name id hsuccess => hordered.takesOne hsuccess⟩
  have habove : start.WaitsAbove name 0 := ⟨Nat.le_refl 0, nofun⟩
  have hstart : start.Ordered := Reachable.ordered ⟨[], rfl⟩
  have hincreasing := (habove.collect_receivedBy wellFormed_start hstart actions).1
  refine ⟨hincreasing, List.pairwise_map.mpr ?_⟩
  exact hincreasing.imp Nat.ne_of_lt

/-- A queue that is destroyed and created again goes on with the next identifiers. -/
theorem run_keeps_order_after_recreation :
    ((run [.createQueue "t" "c.s" {}, .send "t" (.ofBody "a" 0), .receive "c.s",
        .destroyQueue "c.s" true, .createQueue "t" "c.s" {}, .send "t" (.ofBody "b" 0),
        .receive "c.s"]).acknowledge "c.s" 2).1 = .ok () ∧
      TakesOne (run [.createQueue "t" "c.s" {}, .send "t" (.ofBody "a" 0), .receive "c.s",
          .destroyQueue "c.s" true, .createQueue "t" "c.s" {}, .send "t" (.ofBody "b" 0),
          .receive "c.s"])
        ((run [.createQueue "t" "c.s" {}, .send "t" (.ofBody "a" 0), .receive "c.s",
          .destroyQueue "c.s" true, .createQueue "t" "c.s" {}, .send "t" (.ofBody "b" 0),
          .receive "c.s"]).acknowledge "c.s" 2).2 "c.s" 2 := by
  have hsuccess : ((run [.createQueue "t" "c.s" {}, .send "t" (.ofBody "a" 0), .receive "c.s",
      .destroyQueue "c.s" true, .createQueue "t" "c.s" {}, .send "t" (.ofBody "b" 0),
      .receive "c.s"]).acknowledge "c.s" 2).1 = .ok () := by decide +kernel
  exact ⟨hsuccess, (run_keeps_order _).2.2.2 "c.s" 2 hsuccess⟩

end Broker

end BrokerAdmin
