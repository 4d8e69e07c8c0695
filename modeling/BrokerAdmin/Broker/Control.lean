import BrokerAdmin.Broker.State

/-!
# Controlling a broker

The calls by which administration reads and changes a broker. Those that change bridges, queues or
pauses, and those that speak of pending storage operations, are recorded in the journal before they
are carried out, whether they succeed or not.
-/

namespace BrokerAdmin.Broker

/-- Whether the broker has finished starting. -/
def isStarted (b : Broker) : Bool × Broker :=
  (b.started, b.record .isStarted)

/-- Forget the pending storage operations of the caller. -/
def clearPending (b : Broker) : Broker :=
  b.record .clearPending

/-- Wait for the pending storage operations of the caller. -/
def awaitPending (b : Broker) : Outcome Unit :=
  let b := b.record .awaitPending
  match b.storageFailure with
  | some reason => (.error (.storage reason), b)
  | none => (.ok (), b)

/-- Deploy a bridge. It is refused when its name is taken or its source queue is missing. -/
def deployBridge (b : Broker) (spec : Bridge.Spec) : Outcome Bool :=
  let b := b.record (.deployBridge spec.name)
  if b.refusesBridges || b.bridges.contains spec.name || !b.queues.contains spec.queueName then
    (.ok false, b)
  else (.ok true, { b with bridges := b.bridges.insert spec.name spec })

/-- Destroy a bridge. -/
def destroyBridge (b : Broker) (name : String) (force : Bool) : Outcome Unit :=
  let b := b.record (.destroyBridge name force)
  if b.bridges.contains name then (.ok (), { b with bridges := b.bridges.erase name })
  else (.error (.notFound name), b)

/-- Destroy a queue and its messages; with consumers attached only if they may be removed. -/
def destroyQueue (b : Broker) (name : String) (removeConsumers : Bool) : Outcome Unit :=
  let b := b.record (.destroyQueue name removeConsumers)
  match b.queue name with
  | .error e => (.error e, b)
  | .ok q =>
    if !removeConsumers && !q.consumers.isEmpty then (.error (.inUse name), b)
    else
      (.ok (), { b with
        queues := b.queues.erase name
        addresses := b.addresses.modify q.address fun a => a.unbind name })

/-- Stop delivery on an address. A pause that outlives the broker does so until delivery resumes. -/
def pauseAddress (b : Broker) (address : String) (persist : Bool) : Outcome Unit :=
  let b := b.record (.pauseAddress address persist)
  match b.addresses.get? address with
  | none => (.error (.notFound address), b)
  | some a =>
    let persisted := persist || a.pause.getD false
    (.ok (), { b with addresses := b.addresses.insert address { a with pause := some persisted } })

/-- Let delivery on an address go on. -/
def resumeAddress (b : Broker) (address : String) : Outcome Unit :=
  let b := b.record (.resumeAddress address)
  match b.addresses.get? address with
  | none => (.error (.notFound address), b)
  | some a => (.ok (), { b with addresses := b.addresses.insert address { a with pause := none } })

/-- The number of messages that a queue holds. -/
def messageCount (b : Broker) (name : String) : Except Error Nat :=
  (b.queue name).map fun q => q.messages.length + q.delivering.length

/-- The number of messages delivered but not yet acknowledged. -/
def deliveringCount (b : Broker) (name : String) : Except Error Nat :=
  (b.queue name).map fun q => q.delivering.length

/-- The consumers of a queue as a JSON text. -/
def consumersText (b : Broker) (name : String) : Except Error String :=
  (b.queue name).map fun q => Consumer.listText q.consumers

/-- The number of messages of a queue, waiting or delivered, that match a filter. -/
def countMessages (b : Broker) (name : String) (filter : Option String) : Except Error Nat := do
  match ← readOptionalFilter filter with
  | none => b.messageCount name
  | some e => (b.queue name).map fun q => (q.held.filter e.accepts).length

/-- Remove the waiting messages of a queue that match a filter; the answer is their number. -/
def removeMessages (b : Broker) (name : String) (filter : Option String) : Outcome Nat :=
  if b.failingRemovals.contains name then
    (.error (.other ("removal failed on queue " ++ name)), b)
  else
    match readOptionalFilter filter with
    | .error e => (.error e, b)
    | .ok expr =>
      match b.queue name with
      | .error e => (.error e, b)
      | .ok q =>
        let kept := q.messages.filter fun m => !Filter.accepts expr m
        (.ok (q.messages.length - kept.length),
          { b with queues := b.queues.insert name { q with messages := kept } })

/-- The waiting messages of a queue that match a filter. -/
def listMessages (b : Broker) (name : String) (filter : Option String) :
    Except Error (List Message) := do
  let expr ← readOptionalFilter filter
  (b.queue name).map fun q => q.messages.filter (Filter.accepts expr)

end BrokerAdmin.Broker
