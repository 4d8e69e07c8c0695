import BrokerAdmin.Bridge.Spec
import BrokerAdmin.Broker.Queue

/-!
# The state of a broker

A broker in memory: addresses with their queues in the order of creation, queues, deployed bridges, the
last identifiers given out, and a journal of the calls whose order matters. Some failures can be
arranged: bridges are refused, the wait for storage fails, or the removal of messages from a queue
does.
-/

namespace BrokerAdmin

/-- A call that a broker records. -/
inductive Broker.Call where
  | isStarted
  | clearPending
  | awaitPending
  | deployBridge (name : String)
  | destroyBridge (name : String) (force : Bool)
  | destroyQueue (name : String) (removeConsumers : Bool)
  | pauseAddress (address : String) (persist : Bool)
  | resumeAddress (address : String)
  deriving DecidableEq

/-- An address. -/
structure Address where
  /-- The queues bound to the address, in the order of their creation. -/
  queues : List String
  /-- The queue that only keeps the address alive. -/
  placeholder : Option String
  /-- While delivery is paused, whether the pause outlives the broker. -/
  pause : Option Bool
  deriving DecidableEq

/-- An address without queues. -/
def Address.empty : Address := ⟨[], none, none⟩

/-- The address without one of its queues. -/
def Address.unbind (a : Address) (queue : String) : Address :=
  { a with
    queues := a.queues.filter fun name => name != queue
    placeholder := if a.placeholder = some queue then none else a.placeholder }

/-- A broker. -/
structure Broker where
  started : Bool
  addresses : Catalog Address
  queues : Catalog Queue
  bridges : Catalog Bridge.Spec
  lastMessageId : Nat
  lastConsumerId : Nat
  /-- The recorded calls, the oldest first. -/
  journal : List Broker.Call
  /-- Every deployment of a bridge is refused. -/
  refusesBridges : Bool
  /-- Every wait for storage fails with this text. -/
  storageFailure : Option String
  /-- The queues on which the removal of messages fails. -/
  failingRemovals : List String

namespace Broker

/-- A started broker without addresses. -/
def start : Broker where
  started := true
  addresses := Catalog.empty
  queues := Catalog.empty
  bridges := Catalog.empty
  lastMessageId := 0
  lastConsumerId := 0
  journal := []
  refusesBridges := false
  storageFailure := none
  failingRemovals := []

/-- The answer to an operation, and the broker after it. -/
abbrev Outcome (α : Type) := Except Error α × Broker

/-- The broker with one more call in its journal. -/
def record (b : Broker) (call : Call) : Broker :=
  { b with journal := b.journal ++ [call] }

/-- The broker with an empty journal. -/
def clearJournal (b : Broker) : Broker :=
  { b with journal := [] }

/-- The pause of an address, if it is paused: whether the pause outlives the broker. -/
def pauseState (b : Broker) (address : String) : Option Bool :=
  (b.addresses.get? address).bind Address.pause

/-- What there is to know of a queue. -/
def queueControl (b : Broker) (name : String) : Option QueueControl :=
  (b.queues.get? name).map fun q => ⟨name, q.options⟩

/-- What there is to know of an address. -/
def addressControl (b : Broker) (address : String) : Option AddressControl :=
  (b.addresses.get? address).map fun a => ⟨address, a.queues, a.placeholder⟩

/-- The names of the queues bound to an address, in the order of their creation. -/
def queueNames (b : Broker) (address : String) : Except Error (List String) :=
  match b.addresses.get? address with
  | some a => .ok a.queues
  | none => .error (.notFound address)

/-- A queue that must exist. -/
def queue (b : Broker) (name : String) : Except Error Queue :=
  match b.queues.get? name with
  | some q => .ok q
  | none => .error (.notFound name)

end Broker

end BrokerAdmin
