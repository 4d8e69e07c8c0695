import BrokerAdmin.Proofs.Broker.Movement

/-!
# Operations that fail

An operation that answers with an error has changed nothing of what a broker holds, and neither has one
that refuses a bridge. What may be left of it is its entry in the journal, and the identifier of a consumer
that was not attached.

Most operations look for everything that can go wrong before they change anything. Sending does not: it
reads the filters of the queues while it fills them, and would stop halfway at one that cannot be read. A
reachable broker has no such filter, so sending fails there only for want of the address.

Creating a topic is made of two operations, of which the first may succeed alone. What is left then is told
of topics by themselves.
-/

namespace BrokerAdmin.Broker

variable {α : Type}

/-- The answer of an operation is an error. -/
def IsError (answer : Except Error α) : Prop :=
  ∃ e, answer = .error e

/-- An operation that answers with an error leaves the given broker behind. -/
def Atomic (before : Broker) (outcome : Outcome α) : Prop :=
  IsError outcome.1 → outcome.2 = before

/-- An operation may give up. -/
theorem Atomic.error (before : Broker) (e : Error) :
    Atomic before ((.error e, before) : Outcome α) :=
  fun _ => rfl

/-- An operation that succeeds may leave any broker behind. -/
theorem Atomic.ok (before after : Broker) (a : α) : Atomic before (.ok a, after) :=
  fun ⟨_, h⟩ => nomatch h

/-! ### The operations -/

/-- An address that exists is not created again. -/
theorem createAddress_atomic (b : Broker) (address : String) : Atomic b (b.createAddress address) := by
  unfold createAddress
  split
  · apply Atomic.error
  · apply Atomic.ok

/-- A queue whose filter cannot be read or whose name is taken is not created, and neither is its
address. -/
theorem createQueue_atomic (b : Broker) (address name : String) (options : QueueOptions) :
    Atomic b (b.createQueue address name options) := by
  rcases b.createQueue_cases address name options with ⟨e, h⟩ | ⟨-, h⟩
  · rw [h]
    apply Atomic.error
  · rw [h]
    apply Atomic.ok

/-- No queue gets a message that could not be sent, and the message uses up no identifier. -/
theorem WellFormed.send_atomic {b : Broker} (hb : b.WellFormed) (address : String) (m : Message) :
    Atomic b (b.send address m) := by
  cases ha : b.addresses.get? address with
  | none =>
    rw [send_eq_of_none ha]
    apply Atomic.error
  | some a =>
    rw [hb.send_eq ha]
    apply Atomic.ok

/-- Nothing is taken from a queue that does not exist. -/
theorem receive_atomic (b : Broker) (name : String) : Atomic b (b.receive name) := by
  rcases b.receive_cases name with ⟨result, h, -⟩ | ⟨q, m, rest, -, -, h⟩
  · rw [h]
    exact fun _ => rfl
  · rw [h]
    apply Atomic.ok

/-- A message that is not in delivery is not acknowledged. -/
theorem acknowledge_atomic (b : Broker) (name : String) (id : Nat) : Atomic b (b.acknowledge name id) := by
  rcases b.acknowledge_cases name id with ⟨e, h⟩ | ⟨q, -, -, h⟩
  · rw [h]
    apply Atomic.error
  · rw [h]
    apply Atomic.ok

/-- A consumer that finds no queue uses up its identifier and no more. -/
theorem addConsumer_atomic (b : Broker) (name connection session : String) :
    Atomic { b with lastConsumerId := b.lastConsumerId + 1 } (b.addConsumer name connection session) := by
  unfold addConsumer
  dsimp only
  split
  · apply Atomic.error
  · apply Atomic.ok

/-- A queue that does not exist or is in use is not destroyed. -/
theorem destroyQueue_atomic (b : Broker) (name : String) (removeConsumers : Bool) :
    Atomic (b.record (.destroyQueue name removeConsumers)) (b.destroyQueue name removeConsumers) := by
  unfold destroyQueue
  dsimp only
  split
  · apply Atomic.error
  · split
    · apply Atomic.error
    · apply Atomic.ok

/-- A removal that fails removes no message. -/
theorem removeMessages_atomic (b : Broker) (name : String) (filter : Option String) :
    Atomic b (b.removeMessages name filter) := by
  rcases b.removeMessages_cases name filter with ⟨e, h⟩ | ⟨q, expr, -, -, h⟩
  · rw [h]
    apply Atomic.error
  · rw [h]
    apply Atomic.ok

/-- A bridge that is refused is not deployed. -/
theorem deployBridge_of_refused {b : Broker} {spec : Bridge.Spec}
    (h : (b.deployBridge spec).1 ≠ .ok true) :
    (b.deployBridge spec).2 = b.record (.deployBridge spec.name) := by
  unfold deployBridge at h ⊢
  dsimp only at h ⊢
  split at h
  next hrefused => rw [if_pos hrefused]
  next => contradiction

/-- A bridge that is not deployed is not destroyed. -/
theorem destroyBridge_atomic (b : Broker) (name : String) (force : Bool) :
    Atomic (b.record (.destroyBridge name force)) (b.destroyBridge name force) := by
  unfold destroyBridge
  dsimp only
  split
  · apply Atomic.ok
  · apply Atomic.error

/-- Waiting for storage changes nothing when it fails. -/
theorem awaitPending_atomic (b : Broker) : Atomic (b.record .awaitPending) b.awaitPending := by
  unfold awaitPending
  dsimp only
  split
  · apply Atomic.error
  · apply Atomic.ok

/-- An address that does not exist is not paused. -/
theorem pauseAddress_atomic (b : Broker) (address : String) (persist : Bool) :
    Atomic (b.record (.pauseAddress address persist)) (b.pauseAddress address persist) := by
  unfold pauseAddress
  dsimp only
  split
  · apply Atomic.error
  · apply Atomic.ok

/-- Delivery does not go on at an address that does not exist. -/
theorem resumeAddress_atomic (b : Broker) (address : String) :
    Atomic (b.record (.resumeAddress address)) (b.resumeAddress address) := by
  unfold resumeAddress
  dsimp only
  split
  · apply Atomic.error
  · apply Atomic.ok

/-! ### All of them -/

/-- Whether an action is an operation that fails: it answers with an error, or refuses a bridge. -/
def Fails (b : Broker) : Action → Prop
  | .createAddress address => IsError (b.createAddress address).1
  | .createQueue address name options => IsError (b.createQueue address name options).1
  | .send address message => IsError (b.send address message).1
  | .receive name => IsError (b.receive name).1
  | .acknowledge name id => IsError (b.acknowledge name id).1
  | .addConsumer name connection session => IsError (b.addConsumer name connection session).1
  | .destroyQueue name removeConsumers => IsError (b.destroyQueue name removeConsumers).1
  | .removeMessages name filter => IsError (b.removeMessages name filter).1
  | .deployBridge spec => IsError (b.deployBridge spec).1 ∨ (b.deployBridge spec).1 = .ok false
  | .destroyBridge name force => IsError (b.destroyBridge name force).1
  | .awaitPending => IsError b.awaitPending.1
  | .pauseAddress address persist => IsError (b.pauseAddress address persist).1
  | .resumeAddress address => IsError (b.resumeAddress address).1
  | _ => False

/-- A broker is as it was: it differs from the one before at most in its journal and in the last identifier
of a consumer. -/
structure AsBefore (b b' : Broker) : Prop where
  started : b'.started = b.started
  /-- With the queues that they list, their placeholders and their pauses. -/
  addresses : b'.addresses = b.addresses
  /-- With their options, messages and consumers. -/
  queues : b'.queues = b.queues
  bridges : b'.bridges = b.bridges
  lastMessageId : b'.lastMessageId = b.lastMessageId
  refusesBridges : b'.refusesBridges = b.refusesBridges
  storageFailure : b'.storageFailure = b.storageFailure
  failingRemovals : b'.failingRemovals = b.failingRemovals

/-- A broker is as it was when a call is recorded. -/
theorem asBefore_record (b : Broker) (call : Call) : b.AsBefore (b.record call) := by
  constructor <;> rfl

/-- A broker is as it was when it is left so by an operation that failed. -/
theorem Atomic.asBefore {b before : Broker} {outcome : Outcome α} (hatomic : Atomic before outcome)
    (h : IsError outcome.1) (hbefore : b.AsBefore before) : b.AsBefore outcome.2 := by
  rw [hatomic h]
  exact hbefore

/-- An operation that fails leaves a reachable broker as it was. -/
theorem failed_action_changes_nothing {b : Broker} (hb : b.Reachable) {action : Action}
    (h : b.Fails action) : b.AsBefore (b.perform action) := by
  have hsame : b.AsBefore b := by constructor <;> rfl
  cases action with
  | createAddress address => exact (b.createAddress_atomic address).asBefore h hsame
  | createQueue address name options =>
    exact (b.createQueue_atomic address name options).asBefore h hsame
  | send address m => exact (hb.wellFormed.send_atomic address m).asBefore h hsame
  | receive name => exact (b.receive_atomic name).asBefore h hsame
  | acknowledge name id => exact (b.acknowledge_atomic name id).asBefore h hsame
  | addConsumer name connection session =>
    have hused : b.AsBefore { b with lastConsumerId := b.lastConsumerId + 1 } := by constructor <;> rfl
    exact (b.addConsumer_atomic name connection session).asBefore h hused
  | removeMessages name filter => exact (b.removeMessages_atomic name filter).asBefore h hsame
  | deployBridge spec =>
    have hrefused : (b.deployBridge spec).1 ≠ .ok true := by
      intro htaken
      rcases h with ⟨e, herror⟩ | hfalse
      · rw [htaken] at herror
        contradiction
      · rw [htaken] at hfalse
        contradiction
    change b.AsBefore (b.deployBridge spec).2
    rw [deployBridge_of_refused hrefused]
    apply asBefore_record
  | destroyBridge name force =>
    exact (b.destroyBridge_atomic name force).asBefore h (b.asBefore_record _)
  | destroyQueue name removeConsumers =>
    exact (b.destroyQueue_atomic name removeConsumers).asBefore h (b.asBefore_record _)
  | awaitPending => exact b.awaitPending_atomic.asBefore h (b.asBefore_record _)
  | pauseAddress address persist =>
    exact (b.pauseAddress_atomic address persist).asBefore h (b.asBefore_record _)
  | resumeAddress address => exact (b.resumeAddress_atomic address).asBefore h (b.asBefore_record _)
  | createTopic | createTopicWithPlaceholder | isStarted | clearPending | clearJournal | setStarted
  | refuseBridges | failStorage | failRemovals => contradiction

/-- A queue in use could not be destroyed: its message is still in delivery, and its address still
paused. -/
theorem failed_destruction_changes_nothing :
    let b := run [.createQueue "t" "c.s" { filter := some "a IS NULL" }, .addConsumer "c.s" "k" "l",
      .send "t" (.ofBody "text" 0), .receive "c.s", .pauseAddress "t" true]
    (b.destroyQueue "c.s" false).1 = .error (.inUse "c.s") ∧
      b.AsBefore (b.perform (.destroyQueue "c.s" false)) := by
  intro b
  have herror : ((run [.createQueue "t" "c.s" { filter := some "a IS NULL" },
      .addConsumer "c.s" "k" "l", .send "t" (.ofBody "text" 0), .receive "c.s",
      .pauseAddress "t" true]).destroyQueue "c.s" false).1 = .error (.inUse "c.s") := by decide +kernel
  exact ⟨herror, failed_action_changes_nothing ⟨_, rfl⟩ ⟨_, herror⟩⟩

end BrokerAdmin.Broker
