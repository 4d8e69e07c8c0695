import BrokerAdmin.Broker.State

/-!
# Addresses, queues and messages

The operations that build up a broker and move messages through it. Each gives an answer together with
the broker after it; a failed operation leaves the broker as it was unless said otherwise.
-/

namespace BrokerAdmin.Broker

/-- Create an address without queues. -/
def createAddress (b : Broker) (address : String) : Outcome Unit :=
  if b.addresses.contains address then (.error (.alreadyExists address), b)
  else (.ok (), { b with addresses := b.addresses.insert address Address.empty })

/-- Whether a queue may be created: its filter denotes an expression and its name is free. -/
def checkNewQueue (b : Broker) (name : String) (options : QueueOptions) : Except Error Unit := do
  match options.filter with
  | some text => discard (readFilter text)
  | none => pure ()
  if b.queues.contains name then throw (.alreadyExists name)

/-- Create a queue bound to an address, and the address too if there is none. -/
def createQueue (b : Broker) (address name : String) (options : QueueOptions) : Outcome Unit :=
  match b.checkNewQueue name options with
  | .error e => (.error e, b)
  | .ok () =>
    let a := (b.addresses.get? address).getD Address.empty
    (.ok (), { b with
      addresses := b.addresses.insert address { a with queues := a.queues ++ [name] }
      queues := b.queues.insert name (Queue.create address options) })

/-- Make a queue the placeholder of an address. -/
def setPlaceholder (b : Broker) (address placeholder : String) : Broker :=
  { b with
    addresses := b.addresses.modify address fun a => { a with placeholder := some placeholder } }

/-- Create a topic: an address that a placeholder queue keeps alive. An address whose placeholder could
not be created remains, without queues. -/
def createTopicWithPlaceholder (b : Broker) (address placeholder : String) : Outcome Unit :=
  match b.createAddress address with
  | (.error e, b) => (.error e, b)
  | (.ok (), b) =>
    match b.createQueue address placeholder {} with
    | (.error e, b) => (.error e, b)
    | (.ok (), b) => (.ok (), b.setPlaceholder address placeholder)

/-- Create a topic whose placeholder has the name of the address. -/
def createTopic (b : Broker) (address : String) : Outcome Unit :=
  b.createTopicWithPlaceholder address address

/-- Append a message to every multicast queue that admits it and to the first such anycast queue. The
answer is the number of queues. -/
def route (m : Message) : Bool → List String → Catalog Queue → Except Error Nat × Catalog Queue
  | _, [], queues => (.ok 0, queues)
  | anycastTaken, name :: rest, queues =>
    match queues.get? name with
    | none => route m anycastTaken rest queues
    | some q =>
      match q.admits m with
      | .error e => (.error e, queues)
      | .ok false => route m anycastTaken rest queues
      | .ok true =>
        if q.options.routing = .anycast ∧ anycastTaken = true then route m anycastTaken rest queues
        else
          let taken := anycastTaken || q.options.routing = .anycast
          let (routed, queues) :=
            route m taken rest (queues.insert name { q with messages := q.messages ++ [m] })
          (routed.map (· + 1), queues)

/-- Send a message to an address under the next identifier. The answer is the number of queues that got
it. -/
def send (b : Broker) (address : String) (m : Message) : Outcome Nat :=
  match b.queueNames address with
  | .error e => (.error e, b)
  | .ok names =>
    let id := b.lastMessageId + 1
    let (routed, queues) := route { m with id := id } false names b.queues
    (routed, { b with lastMessageId := id, queues := queues })

/-- Take the next message from a queue for delivery: none while the queue is empty or its address is
paused. -/
def receive (b : Broker) (name : String) : Outcome (Option Message) :=
  match b.queue name with
  | .error e => (.error e, b)
  | .ok q =>
    if (b.pauseState q.address).isSome then (.ok none, b)
    else
      match q.messages with
      | [] => (.ok none, b)
      | m :: rest =>
        (.ok (some m), { b with
          queues := b.queues.insert name { q with messages := rest, delivering := q.delivering ++ [m] } })

/-- Acknowledge a delivered message. -/
def acknowledge (b : Broker) (name : String) (id : Nat) : Outcome Unit :=
  match b.queue name with
  | .error e => (.error e, b)
  | .ok q =>
    let rest := q.delivering.filter fun m => m.id != id
    if rest.length = q.delivering.length then
      (.error (.notFound ("message " ++ Text.ofNat id ++ " on " ++ name)), b)
    else (.ok (), { b with queues := b.queues.insert name { q with delivering := rest } })

/-- Attach a consumer to a queue; the answer is its identifier, which is used up even if there is no
such queue. -/
def addConsumer (b : Broker) (name connection session : String) : Outcome String :=
  let id := b.lastConsumerId + 1
  let b := { b with lastConsumerId := id }
  match b.queue name with
  | .error e => (.error e, b)
  | .ok q =>
    let consumer : Consumer := ⟨Text.ofNat id, connection, session, false, 0⟩
    (.ok (Text.ofNat id),
      { b with queues := b.queues.insert name { q with consumers := q.consumers ++ [consumer] } })

end BrokerAdmin.Broker
