import BrokerAdmin.Broker.Handle
import BrokerAdmin.Subscription.Error
import BrokerAdmin.Subscription.Operation

/-!
# Administration of subscriptions

The operations on the subscriptions of a topic, carried out through a handle on the broker. Nothing is
remembered between two operations. Every topic may have a placeholder among its queues, which is neither
listed nor dropped. An operation that only asks is a function of the state; the others give the state
after them too.
-/

namespace BrokerAdmin.Subscription

variable {σ : Type}

/-- The answer to an operation, and the state after it. -/
abbrev Outcome (σ α : Type) := Except Error α × σ

/-- What there is to know of an address that must exist. -/
def addressControl (h : Handle σ) (address : String) (s : σ) : Except Error AddressControl :=
  match h.addressControl address s with
  | some control => .ok control
  | none => .error (.addressNotFound address)

/-- The queues behind the subscriptions of an address, in the order of the broker. A queue that is gone
is passed over. -/
def subscriptionQueues (h : Handle σ) (durability : Durability) (address : String) (s : σ) :
    Except Error (List QueueControl) := do
  let control ← addressControl h address s
  let names ← (h.queueNames address s).mapError fun e => .listing address (.broker e)
  let queues := (names.filter fun name => control.placeholder != some name).filterMap
    fun name => h.queueControl name s
  return queues.filter fun queue => durability.includes queue.options.durable

/-- What is reported of the subscription behind a queue. -/
def ofQueue (h : Handle σ) (s : σ) (queue : QueueControl) : Except ListingFault Subscription := do
  let (client, name) ←
    (identity queue.name queue.options.durable queue.options.routing).mapError .queueName
  let text ← (h.consumersText queue.name s).mapError .broker
  let some consumers := Consumer.ofListText? text | throw (.consumers queue.name)
  let messageCount ← (h.messageCount queue.name s).mapError .broker
  let deliveringCount ← (h.deliveringCount queue.name s).mapError .broker
  return ⟨queue.name, queue.options.durable, messageCount, deliveringCount, consumers, client,
    queue.options.filter, name⟩

/-- The subscriptions of an address. -/
def list (h : Handle σ) (durability : Durability) (address : String) (s : σ) :
    Except Error (List Subscription) := do
  let queues ← subscriptionQueues h durability address s
  (queues.mapM (ofQueue h s)).mapError (.listing address)

/-- The messages that wait for a subscription, without their bodies. -/
def listMessages (h : Handle σ) (queueName : String) (s : σ) : Except Error (List MessageView) :=
  match h.queueControl queueName s with
  | none => .error (.noSuchQueue queueName)
  | some _ =>
    match h.listMessages queueName none s with
    | .ok messages => .ok (messages.map MessageView.ofMessage)
    | .error e => .error (.broker e)

/-- The name of the queue behind a durable subscription that must exist. -/
def durableQueue (h : Handle σ) (client name : String) (s : σ) : Except Error String :=
  if client.isEmpty then .error (.emptyArgument .client)
  else if name.isEmpty then .error (.emptyArgument .name)
  else
    let queueName := durableQueueName (some client) name
    match h.queueControl queueName s with
    | some _ => .ok queueName
    | none => .error (.noSuchSubscription client name queueName)

/-- The number of messages of a durable subscription that a selector selects. -/
def countMessages (h : Handle σ) (client name : String) (selector : Option String) (s : σ) :
    Except Error Nat := do
  let queueName ← durableQueue h client name s
  let filter ← (Selector.toFilter selector).mapError .invalidSelector
  (h.countMessages queueName filter s).mapError .broker

/-- Drop a durable subscription together with its consumers. -/
def dropDurable (h : Handle σ) (client name : String) (s : σ) : Outcome σ Unit :=
  match durableQueue h client name s with
  | .error e => (.error e, s)
  | .ok queueName =>
    let (result, s) := h.destroyQueue queueName true s
    (result.mapError .broker, s)

/-- Destroy queues one after the other up to the first failure; the answer is their number. -/
def destroyQueues (h : Handle σ) : List String → σ → Outcome σ Nat
  | [], s => (.ok 0, s)
  | name :: rest, s =>
    match h.destroyQueue name false s with
    | (.error e, s) => (.error (.broker e), s)
    | (.ok (), s) =>
      let (dropped, s) := destroyQueues h rest s
      (dropped.map (· + 1), s)

/-- Drop all subscriptions of an address up to the first that has consumers; the answer is their number. -/
def dropAll (h : Handle σ) (address : String) (s : σ) : Outcome σ Nat :=
  match addressControl h address s with
  | .error e => (.error e, s)
  | .ok control =>
    destroyQueues h (control.queues.filter fun name => control.placeholder != some name) s

/-- Remove the messages that match a filter from queues one after the other up to the first failure, some
having been removed before; the answer is the number of all. -/
def removeFrom (h : Handle σ) (filter : Option String) : Nat → List String → σ → Outcome σ Nat
  | removed, [], s => (.ok removed, s)
  | removed, name :: rest, s =>
    match h.queueControl name s with
    | none => removeFrom h filter removed rest s
    | some _ =>
      match h.removeMessages name filter s with
      | (.ok count, s) => removeFrom h filter (removed + count) rest s
      | (.error e, s) => (.error (.partialRemoval name removed e), s)

/-- Remove the messages that a selector selects from all queues of an address. -/
def removeMessages (h : Handle σ) (selector : Option String) (address : String) (s : σ) :
    Outcome σ Nat :=
  match Selector.toFilter selector with
  | .error e => (.error (.invalidSelector e), s)
  | .ok filter =>
    match addressControl h address s with
    | .error e => (.error e, s)
    | .ok control => removeFrom h filter 0 control.queues s

/-- Stop delivery on an address. -/
def pause (h : Handle σ) (address : String) (persist : Bool) (s : σ) : Outcome σ Unit :=
  let (result, s) := h.pauseAddress address persist s
  (result.mapError .broker, s)

/-- Let delivery on an address go on. -/
def resume (h : Handle σ) (address : String) (s : σ) : Outcome σ Unit :=
  let (result, s) := h.resumeAddress address s
  (result.mapError .broker, s)

/-- The counts over all subscriptions of an address. -/
def statistics (h : Handle σ) (address : String) (s : σ) : Except Error Statistics :=
  (list h .all address s).map Statistics.ofList

/-- Carry out an operation on an address. -/
def execute (h : Handle σ) (address : String) (operation : Operation) (s : σ) : Outcome σ Reply :=
  match operation with
  | .list durability asText =>
    ((list h durability address s).map fun items =>
      if asText then .text (listText items) else .subscriptions items, s)
  | .listMessages queueName asText =>
    ((listMessages h queueName s).map fun items =>
      if asText then .text (MessageView.listText items) else .messages items, s)
  | .countMessages client name selector =>
    ((countMessages h client name selector s).map .count, s)
  | .dropDurable client name =>
    let (result, s) := dropDurable h client name s
    (result.map fun () => .none, s)
  | .dropAll =>
    let (result, s) := dropAll h address s
    (result.map fun _ => .none, s)
  | .removeMessages selector =>
    let (result, s) := removeMessages h selector address s
    (result.map .count, s)
  | .pause persist =>
    let (result, s) := pause h address persist s
    (result.map fun () => .none, s)
  | .resume =>
    let (result, s) := resume h address s
    (result.map fun () => .none, s)

/-- Carry out an operation on a topic. -/
def executeOnTopic (h : Handle σ) (topic : String) (operation : Operation) (s : σ) :
    Outcome σ Reply :=
  execute h (topicAddress topic) operation s

end BrokerAdmin.Subscription
