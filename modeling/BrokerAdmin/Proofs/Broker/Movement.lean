import BrokerAdmin.Proofs.Broker.Recipients

/-!
# How messages move through a queue

A message enters a queue at its tail when it is routed there, is taken from the front for delivery, and
leaves the queue when it is acknowledged or removed. What an action routes into a queue, acknowledges or
removes is noted from the action and its answer; `Queue.Moves` says what becomes of the queue. Every action
on a well-formed broker moves the messages of a queue in this way or destroys the queue, and a queue comes
into being without messages.
-/

namespace BrokerAdmin

/-- What can happen to a queue, with the messages that are routed into it, acknowledged, and removed. -/
inductive Queue.Moves (q : Queue) :
    (routed acknowledged removed : List Message) → (after : Queue) → Prop
  | attach (consumers : List Consumer) : Moves q [] [] [] { q with consumers := consumers }
  | enter (m : Message) : Moves q [m] [] [] (q.append m)
  | deliver {m : Message} {rest : List Message} : q.messages = m :: rest →
      Moves q [] [] [] { q with messages := rest, delivering := q.delivering ++ [m] }
  | acknowledge (id : Nat) : Moves q [] (q.delivering.filter fun m => m.id == id) []
      { q with delivering := q.delivering.filter fun m => m.id != id }
  | remove (selected : Message → Bool) : Moves q [] [] (q.messages.filter selected)
      { q with messages := q.messages.filter fun m => !selected m }

/-- Nothing need happen to a queue. -/
theorem Queue.Moves.refl (q : Queue) : q.Moves [] [] [] q :=
  .attach q.consumers

namespace Broker

/-! ### What is noted of an action -/

/-- The message that an action takes from a queue for delivery. -/
def receivedBy (name : String) (b : Broker) : Action → List Message
  | .receive other =>
    match (b.receive other).1 with
    | .ok (some m) => if other = name then [m] else []
    | _ => []
  | _ => []

/-- The message that an action routes into a queue. -/
def routedBy (name : String) (b : Broker) : Action → List Message
  | .send address m => if name ∈ b.recipients address m then [b.stamped m] else []
  | _ => []

/-- The messages of a queue that an action acknowledges: the delivered ones of that identifier. -/
def acknowledgedBy (name : String) (b : Broker) : Action → List Message
  | .acknowledge other id =>
    match (b.acknowledge other id).1, b.queues.get? other with
    | .ok (), some q => if other = name then q.delivering.filter fun m => m.id == id else []
    | _, _ => []
  | _ => []

/-- The messages that an action removes from a queue: those that are listed with the same filter. -/
def removedBy (name : String) (b : Broker) : Action → List Message
  | .removeMessages other filter =>
    match (b.removeMessages other filter).1, b.listMessages other filter with
    | .ok _, .ok messages => if other = name then messages else []
    | _, _ => []
  | _ => []

/-! ### The operations on a queue -/

/-- Receiving takes the message in front of a queue, or changes nothing. -/
theorem receive_cases (b : Broker) (name : String) :
    (∃ result, b.receive name = (result, b) ∧ ∀ m, result ≠ .ok (some m)) ∨
      ∃ q m rest, b.queues.get? name = some q ∧ q.messages = m :: rest ∧
        b.receive name = (.ok (some m), { b with
          queues := b.queues.insert name
            { q with messages := rest, delivering := q.delivering ++ [m] } }) := by
  unfold receive
  split
  next => exact Or.inl ⟨_, rfl, nofun⟩
  next q hq =>
    split
    next => exact Or.inl ⟨_, rfl, nofun⟩
    next =>
      split
      next => exact Or.inl ⟨_, rfl, nofun⟩
      next m rest hmessages =>
        exact Or.inr ⟨q, m, rest, (queue_eq_ok_iff b name q).mp hq, hmessages, rfl⟩

/-- Acknowledging takes delivered messages from a queue, or fails and changes nothing. -/
theorem acknowledge_cases (b : Broker) (name : String) (id : Nat) :
    (∃ e, b.acknowledge name id = (.error e, b)) ∨
      ∃ q, b.queues.get? name = some q ∧ (∃ m ∈ q.delivering, m.id = id) ∧
        b.acknowledge name id = (.ok (), { b with
          queues := b.queues.insert name
            { q with delivering := q.delivering.filter fun m => m.id != id } }) := by
  unfold acknowledge
  split
  next => exact Or.inl ⟨_, rfl⟩
  next q hq =>
    dsimp only
    split
    next => exact Or.inl ⟨_, rfl⟩
    next hlength =>
      refine Or.inr ⟨q, (queue_eq_ok_iff b name q).mp hq, ?_, rfl⟩
      by_contra hnone
      push Not at hnone
      apply hlength
      rw [List.filter_eq_self.mpr fun m hm => by simpa using hnone m hm]

/-- Removing messages takes those that are listed with the same filter, or fails and changes nothing. -/
theorem removeMessages_cases (b : Broker) (name : String) (filter : Option String) :
    (∃ e, b.removeMessages name filter = (.error e, b)) ∨
      ∃ q expr, b.queues.get? name = some q ∧
        b.listMessages name filter = .ok (q.messages.filter (Filter.accepts expr)) ∧
        b.removeMessages name filter =
          (.ok (q.messages.filter (Filter.accepts expr)).length, { b with
            queues := b.queues.insert name
              { q with messages := q.messages.filter fun m => !Filter.accepts expr m } }) := by
  unfold removeMessages
  split
  next => exact Or.inl ⟨_, rfl⟩
  next =>
    split
    next => exact Or.inl ⟨_, rfl⟩
    next expr hexpr =>
      split
      next => exact Or.inl ⟨_, rfl⟩
      next q hq =>
        have hlist : b.listMessages name filter = .ok (q.messages.filter (Filter.accepts expr)) := by
          rw [listMessages, hexpr, hq]
          rfl
        have hcount : q.messages.length - (q.messages.filter fun m => !Filter.accepts expr m).length =
            (q.messages.filter (Filter.accepts expr)).length := by
          have hsplit := List.length_eq_length_filter_add (l := q.messages) (Filter.accepts expr)
          omega
        refine Or.inr ⟨q, expr, (queue_eq_ok_iff b name q).mp hq, hlist, ?_⟩
        dsimp only
        rw [hcount]

/-- Attaching a consumer changes the consumers of a queue, or no queue at all. -/
theorem addConsumer_cases (b : Broker) (name connection session : String) :
    (b.addConsumer name connection session).2.queues = b.queues ∨
      ∃ q consumers, b.queues.get? name = some q ∧
        (b.addConsumer name connection session).2.queues =
          b.queues.insert name { q with consumers := consumers } := by
  unfold addConsumer
  dsimp only
  split
  next => exact Or.inl rfl
  next q hq => exact Or.inr ⟨q, _, (queue_eq_ok_iff _ name q).mp hq, rfl⟩

/-- Creating an address leaves the queues as they are. -/
theorem queues_createAddress (b : Broker) (address : String) :
    (b.createAddress address).2.queues = b.queues := by
  unfold createAddress
  split <;> rfl

/-- Creating a topic adds its placeholder to the queues, or leaves them as they are. -/
theorem createTopicWithPlaceholder_cases (b : Broker) (address placeholder : String) :
    (b.createTopicWithPlaceholder address placeholder).2.queues = b.queues ∨
      (b.queues.get? placeholder = none ∧
        (b.createTopicWithPlaceholder address placeholder).2.queues =
          b.queues.insert placeholder (Queue.create address {})) := by
  rcases b.createTopic_cases address placeholder with heq | ⟨-, heq | ⟨hfree, heq⟩⟩
  · exact Or.inl (by rw [heq])
  · exact Or.inl (by rw [heq, withAddress])
  · exact Or.inr ⟨hfree, by rw [heq, withTopic]⟩

/-- Waiting for storage leaves the queues as they are. -/
theorem queues_awaitPending (b : Broker) : b.awaitPending.2.queues = b.queues := by
  unfold awaitPending
  dsimp only
  split <;> rfl

/-- Deploying a bridge leaves the queues as they are. -/
theorem queues_deployBridge (b : Broker) (spec : Bridge.Spec) :
    (b.deployBridge spec).2.queues = b.queues := by
  unfold deployBridge
  dsimp only
  split <;> rfl

/-- Destroying a bridge leaves the queues as they are. -/
theorem queues_destroyBridge (b : Broker) (name : String) (force : Bool) :
    (b.destroyBridge name force).2.queues = b.queues := by
  unfold destroyBridge
  dsimp only
  split <;> rfl

/-- Destroying a queue takes it from the others, or fails and leaves them as they are. -/
theorem destroyQueue_cases (b : Broker) (name : String) (removeConsumers : Bool) :
    (b.destroyQueue name removeConsumers).2.queues = b.queues ∨
      (b.destroyQueue name removeConsumers).2.queues = b.queues.erase name := by
  rcases b.destroyQueue_eq name removeConsumers with heq | ⟨q, -, heq⟩
  · exact Or.inl (by rw [heq]; rfl)
  · exact Or.inr (by rw [heq]; rfl)

/-! ### Actions -/

/-- Whether an action is about what a queue holds, and not about which queues there are. -/
def Action.isAboutContents : Action → Bool
  | .send .. | .receive .. | .acknowledge .. | .removeMessages .. | .addConsumer .. => true
  | _ => false

/-- Several queues, the same as before but for one that came or went. -/
inductive Redrawn (before : Catalog Queue) : Catalog Queue → Prop
  | same : Redrawn before before
  | came {name : String} (address : String) (options : QueueOptions) : before.get? name = none →
      Redrawn before (before.insert name (Queue.create address options))
  | gone (name : String) : Redrawn before (before.erase name)

/-- Nothing has come or gone when the queues are the same. -/
theorem Redrawn.of_eq {before after : Catalog Queue} (h : after = before) : Redrawn before after :=
  h ▸ .same

/-- A queue that is still there when others come and go is as before. -/
theorem Redrawn.get? {before after : Catalog Queue} (h : Redrawn before after) {name : String}
    {q : Queue} (hq : before.get? name = some q) :
    after.get? name = none ∨ after.get? name = some q := by
  cases h with
  | same => exact Or.inr hq
  | @came other address options hnone =>
    have hne : name ≠ other := by
      rintro rfl
      rw [hnone] at hq
      contradiction
    exact Or.inr (by simpa [hne] using hq)
  | gone other => by_cases hother : name = other <;> simp [hother, hq]

/-- A queue that was not there before is new. -/
theorem Redrawn.eq_create {before after : Catalog Queue} (h : Redrawn before after) {name : String}
    {q : Queue} (hnone : before.get? name = none) (hq : after.get? name = some q) :
    ∃ address options, q = Queue.create address options := by
  cases h with
  | same =>
    rw [hnone] at hq
    contradiction
  | @came other address options =>
    by_cases hother : name = other
    · subst hother
      exact ⟨address, options, by simpa using hq.symm⟩
    · simp [hother, hnone] at hq
  | gone other => by_cases hother : name = other <;> simp [hother, hnone] at hq

/-- An action that is not about what queues hold makes at most one of them come or go. -/
theorem redrawn_perform (b : Broker) {action : Action} (h : action.isAboutContents = false) :
    Redrawn b.queues (b.perform action).queues := by
  have htopic : ∀ address placeholder,
      Redrawn b.queues (b.createTopicWithPlaceholder address placeholder).2.queues := by
    intro address placeholder
    rcases b.createTopicWithPlaceholder_cases address placeholder with heq | ⟨hnone, heq⟩
    · exact .of_eq heq
    · exact heq ▸ .came address {} hnone
  cases action with
  | send | receive | acknowledge | removeMessages | addConsumer => contradiction
  | createAddress address => exact .of_eq (b.queues_createAddress address)
  | createTopic address => exact htopic address address
  | createTopicWithPlaceholder address placeholder => exact htopic address placeholder
  | createQueue address name options =>
    change Redrawn b.queues (b.createQueue address name options).2.queues
    rcases b.createQueue_cases address name options with ⟨e, heq⟩ | ⟨hnone, heq⟩
    · exact .of_eq (by rw [heq])
    · rw [heq]
      exact .came address options hnone
  | destroyQueue name removeConsumers =>
    rcases b.destroyQueue_cases name removeConsumers with heq | heq
    · exact .of_eq heq
    · exact heq ▸ .gone name
  | pauseAddress address persist => exact .of_eq (b.queues_pauseAddress address persist)
  | resumeAddress address => exact .of_eq (b.queues_resumeAddress address)
  | awaitPending => exact .of_eq b.queues_awaitPending
  | deployBridge spec => exact .of_eq (b.queues_deployBridge spec)
  | destroyBridge name force => exact .of_eq (b.queues_destroyBridge name force)
  | isStarted | clearPending | clearJournal | setStarted | refuseBridges | failStorage
  | failRemovals => exact .same

/-- A queue that is written with its messages moved. -/
theorem exists_moves_insert {b : Broker} {name other : String} {q r r' : Queue}
    {routed acknowledged removed : List Message} (hq : b.queues.get? name = some q)
    (hr : b.queues.get? other = some r) (hmoves : r.Moves routed acknowledged removed r') :
    ∃ q', (b.queues.insert other r').get? name = some q' ∧
      q.Moves (if other = name then routed else []) (if other = name then acknowledged else [])
        (if other = name then removed else []) q' := by
  by_cases hother : other = name
  · subst hother
    obtain rfl : q = r := Option.some.inj (hq.symm.trans hr)
    exact ⟨r', by simp, by simpa using hmoves⟩
  · exact ⟨q, by simp [Ne.symm hother, hq], by simpa [hother] using .refl q⟩

/-- An action leaves the queue of a name there, with its messages moved as it is noted. -/
def MovesMessages (b : Broker) (name : String) (q : Queue) (action : Action) : Prop :=
  ∃ q', (b.perform action).queues.get? name = some q' ∧
    q.Moves (routedBy name b action) (acknowledgedBy name b action) (removedBy name b action) q'

/-- Sending moves a message into the queues of its recipients. -/
theorem WellFormed.send_moves {b : Broker} (hb : b.WellFormed) {name : String} {q : Queue}
    (hq : b.queues.get? name = some q) (address : String) (m : Message) :
    b.MovesMessages name q (.send address m) := by
  change ∃ q', (b.send address m).2.queues.get? name = some q' ∧ q.Moves (routedBy name b _) [] [] q'
  cases ha : b.addresses.get? address with
  | none =>
    have hrouted : routedBy name b (.send address m) = [] := by simp [routedBy, recipients, ha]
    rw [send_eq_of_none ha, hrouted]
    exact ⟨q, hq, .refl q⟩
  | some a =>
    rw [hb.send_eq ha, routedBy]
    refine ⟨_, by rw [delivered, Catalog.get?_mapEntries, hq]; rfl, ?_⟩
    split
    next => exact .enter _
    next => exact .refl q

/-- Receiving moves a message from those that wait to those in delivery, if any. -/
theorem receive_moves {b : Broker} {name : String} {q : Queue} (hq : b.queues.get? name = some q)
    (other : String) : b.MovesMessages name q (.receive other) := by
  change ∃ q', (b.receive other).2.queues.get? name = some q' ∧ q.Moves [] [] [] q'
  rcases b.receive_cases other with ⟨result, heq, -⟩ | ⟨r, m, rest, hr, hmessages, heq⟩
  · rw [heq]
    exact ⟨q, hq, .refl q⟩
  · rw [heq]
    simpa using exists_moves_insert hq hr (.deliver hmessages)

/-- Acknowledging moves the messages of the identifier out of a queue, if it succeeds. -/
theorem acknowledge_moves {b : Broker} {name : String} {q : Queue} (hq : b.queues.get? name = some q)
    (other : String) (id : Nat) : b.MovesMessages name q (.acknowledge other id) := by
  change ∃ q', (b.acknowledge other id).2.queues.get? name = some q' ∧
    q.Moves [] (acknowledgedBy name b _) [] q'
  rcases b.acknowledge_cases other id with ⟨e, heq⟩ | ⟨r, hr, -, heq⟩
  · have hnone : acknowledgedBy name b (.acknowledge other id) = [] := by
      simp only [acknowledgedBy, heq]
    rw [heq, hnone]
    exact ⟨q, hq, .refl q⟩
  · have hnoted : acknowledgedBy name b (.acknowledge other id) =
        if other = name then r.delivering.filter fun m => m.id == id else [] := by
      simp only [acknowledgedBy, heq, hr]
    rw [heq, hnoted]
    simpa using exists_moves_insert hq hr (.acknowledge id)

/-- Removing messages moves those that are listed out of a queue, if it succeeds. -/
theorem removeMessages_moves {b : Broker} {name : String} {q : Queue}
    (hq : b.queues.get? name = some q) (other : String) (filter : Option String) :
    b.MovesMessages name q (.removeMessages other filter) := by
  change ∃ q', (b.removeMessages other filter).2.queues.get? name = some q' ∧
    q.Moves [] [] (removedBy name b _) q'
  rcases b.removeMessages_cases other filter with ⟨e, heq⟩ | ⟨r, expr, hr, hlist, heq⟩
  · have hnone : removedBy name b (.removeMessages other filter) = [] := by
      simp only [removedBy, heq]
    rw [heq, hnone]
    exact ⟨q, hq, .refl q⟩
  · have hnoted : removedBy name b (.removeMessages other filter) =
        if other = name then r.messages.filter (Filter.accepts expr) else [] := by
      simp only [removedBy, heq, hlist]
    rw [heq, hnoted]
    simpa using exists_moves_insert hq hr (.remove (Filter.accepts expr))

/-- Attaching a consumer moves no message. -/
theorem addConsumer_moves {b : Broker} {name : String} {q : Queue} (hq : b.queues.get? name = some q)
    (other connection session : String) :
    b.MovesMessages name q (.addConsumer other connection session) := by
  change ∃ q', (b.addConsumer other connection session).2.queues.get? name = some q' ∧
    q.Moves [] [] [] q'
  rcases b.addConsumer_cases other connection session with heq | ⟨r, consumers, hr, heq⟩
  · rw [heq]
    exact ⟨q, hq, .refl q⟩
  · rw [heq]
    simpa using exists_moves_insert hq hr (.attach consumers)

/-- Every action on a well-formed broker moves the messages of a queue as it is noted, or destroys the
queue. -/
theorem WellFormed.perform_moves {b : Broker} (hb : b.WellFormed) (action : Action) {name : String}
    {q : Queue} (hq : b.queues.get? name = some q) :
    (b.perform action).queues.get? name = none ∨ b.MovesMessages name q action := by
  by_cases hcontents : action.isAboutContents = true
  · right
    cases action with
    | send address m => exact hb.send_moves hq address m
    | receive other => exact receive_moves hq other
    | acknowledge other id => exact acknowledge_moves hq other id
    | removeMessages other filter => exact removeMessages_moves hq other filter
    | addConsumer other connection session => exact addConsumer_moves hq other connection session
    | _ => contradiction
  · rw [Bool.not_eq_true] at hcontents
    refine ((b.redrawn_perform hcontents).get? hq).imp_right fun hsame => ⟨q, hsame, ?_⟩
    have hnotes : routedBy name b action = [] ∧ acknowledgedBy name b action = [] ∧
        removedBy name b action = [] := by
      cases action <;> first | exact ⟨rfl, rfl, rfl⟩ | contradiction
    obtain ⟨hrouted, hacknowledged, hremoved⟩ := hnotes
    rw [hrouted, hacknowledged, hremoved]
    exact .refl q

/-- A queue comes into being without messages. -/
theorem eq_create_of_perform {b : Broker} {action : Action} {name : String} {q : Queue}
    (hnone : b.queues.get? name = none) (hq : (b.perform action).queues.get? name = some q) :
    ∃ address options, q = Queue.create address options := by
  by_cases hcontents : action.isAboutContents = true
  · have haddresses : action.isAboutAddresses = false := by
      cases action <;> first | rfl | contradiction
    rw [(b.restocks_perform haddresses).get?_eq_none hnone] at hq
    contradiction
  · rw [Bool.not_eq_true] at hcontents
    exact (b.redrawn_perform hcontents).eq_create hnone hq

/-- A queue after an action is new, or it was there before and its messages have moved as it is noted. -/
theorem WellFormed.created_or_moved {b : Broker} (hb : b.WellFormed) {action : Action} {name : String}
    {q' : Queue} (hq' : (b.perform action).queues.get? name = some q') :
    (b.queues.get? name = none ∧ ∃ address options, q' = Queue.create address options) ∨
      ∃ q, b.queues.get? name = some q ∧
        q.Moves (routedBy name b action) (acknowledgedBy name b action) (removedBy name b action) q' := by
  cases hq : b.queues.get? name with
  | none => exact Or.inl ⟨rfl, eq_create_of_perform hq hq'⟩
  | some q =>
    rcases hb.perform_moves action hq with hgone | ⟨q'', hq'', hmoves⟩
    · rw [hgone] at hq'
      contradiction
    · obtain rfl : q' = q'' := Option.some.inj (hq'.symm.trans hq'')
      exact Or.inr ⟨q, rfl, hmoves⟩

end Broker

end BrokerAdmin
