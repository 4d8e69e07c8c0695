import BrokerAdmin.Broker.Handle

/-!
# A broker behind faults

A broker in memory whose handle misbehaves as arranged: queues vanish from it, queues that do not exist
are reported, texts are forged, calls fail before they reach the broker, and changes of bridges never
complete. What is not arranged reaches the broker unchanged.
-/

namespace BrokerAdmin

/-- A call that can be made to fail. -/
inductive FaultPoint where
  | deployBridge
  | destroyBridge
  | destroyQueue
  | queueNames
  | messageCount
  | deliveringCount
  | consumersText
  | countMessages
  | removeMessages
  | listMessages
  deriving DecidableEq

/-- What has been arranged to go wrong; the latest failure of a call comes first. -/
structure Faults where
  vanished : List String := []
  /-- Names that are reported for an address in addition to its queues. -/
  ghosts : List (String × String) := []
  /-- Texts given for the consumers of a queue. -/
  consumersTexts : List (String × String) := []
  /-- The error of a call about a queue, an address or a bridge. -/
  errors : List ((FaultPoint × String) × Broker.Error) := []
  /-- Whether changes of bridges are carried out but never answered. -/
  hangs : Bool := false

/-- A broker with the faults that stand before it. -/
structure Faulty where
  broker : Broker
  faults : Faults := {}

namespace Faulty

/-- The error arranged for a call. -/
def error? (f : Faulty) (point : FaultPoint) (name : String) : Option Broker.Error :=
  f.faults.errors.lookup (point, name)

/-- A call that may fail before it reaches the broker. -/
def guarded {α : Type} (f : Faulty) (point : FaultPoint) (name : String)
    (call : Broker → Except Broker.Error α) : Except Broker.Error α :=
  match f.error? point name with
  | some e => .error e
  | none => call f.broker

/-- A call that changes the broker, unless it fails before it reaches it. -/
def guardedChange {α : Type} (f : Faulty) (point : FaultPoint) (name : String)
    (call : Broker → Broker.Outcome α) : Except Broker.Error α × Faulty :=
  match f.error? point name with
  | some e => (.error e, f)
  | none => ((call f.broker).1, { f with broker := (call f.broker).2 })

/-- A change of bridges, which may never be answered. -/
def bridgeChange {α : Type} (f : Faulty) (point : FaultPoint) (name : String)
    (call : Broker → Broker.Outcome α) : Answer Broker.Error α × Faulty :=
  let (result, after) := f.guardedChange point name call
  if (f.error? point name).isNone && f.faults.hangs then (.abandoned, after)
  else (.finished result, after)

/-- The names that are reported for an address in addition to its queues. -/
def ghostsOf (f : Faulty) (address : String) : List String :=
  (f.faults.ghosts.filter fun ghost => ghost.1 == address).map Prod.snd

/-- The calls that reach the broker through its faults. -/
def handle : Handle Faulty where
  isStarted f := (f.broker.isStarted.1, { f with broker := f.broker.isStarted.2 })
  clearPending f := { f with broker := f.broker.clearPending }
  awaitPending f := (f.broker.awaitPending.1, { f with broker := f.broker.awaitPending.2 })
  deployBridge spec f := f.bridgeChange .deployBridge spec.name (·.deployBridge spec)
  destroyBridge name force f := f.bridgeChange .destroyBridge name (·.destroyBridge name force)
  destroyQueue name removeConsumers f :=
    f.guardedChange .destroyQueue name (·.destroyQueue name removeConsumers)
  queueNames address f :=
    (f.guarded .queueNames address (·.queueNames address)).map (· ++ f.ghostsOf address)
  queueControl name f := if f.faults.vanished.contains name then none else f.broker.queueControl name
  addressControl address f :=
    (f.broker.addressControl address).map fun control =>
      { control with queues := control.queues ++ f.ghostsOf address }
  pauseAddress address persist f :=
    ((f.broker.pauseAddress address persist).1,
      { f with broker := (f.broker.pauseAddress address persist).2 })
  resumeAddress address f :=
    ((f.broker.resumeAddress address).1, { f with broker := (f.broker.resumeAddress address).2 })
  messageCount name f := f.guarded .messageCount name (·.messageCount name)
  deliveringCount name f := f.guarded .deliveringCount name (·.deliveringCount name)
  consumersText name f :=
    f.guarded .consumersText name fun b =>
      match f.faults.consumersTexts.lookup name with
      | some text => .ok text
      | none => b.consumersText name
  countMessages name filter f := f.guarded .countMessages name (·.countMessages name filter)
  removeMessages name filter f :=
    f.guardedChange .removeMessages name (·.removeMessages name filter)
  listMessages name filter f := f.guarded .listMessages name (·.listMessages name filter)

end Faulty

end BrokerAdmin
