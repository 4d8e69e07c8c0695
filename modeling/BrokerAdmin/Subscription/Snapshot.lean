import BrokerAdmin.Broker.Queue
import BrokerAdmin.Subscription.Name

/-!
# Snapshots of subscriptions

A subscription is a queue bound to the address of a topic. What is reported of it is read from the queue
when it is asked for: whose subscription it is follows from the name of a durable multicast queue and
is not known of any other.
-/

namespace BrokerAdmin

/-- What is reported of a subscription. -/
structure Subscription where
  queueName : String
  durable : Bool
  messageCount : Nat
  deliveringCount : Nat
  consumers : List Consumer
  client : Option String
  filter : Option String
  name : Option String
  deriving DecidableEq

namespace Subscription

/-- Which subscriptions are meant. -/
inductive Durability where
  | all
  | durable
  | nonDurable
  deriving DecidableEq

namespace Durability

/-- Whether a durable subscription, or one that is not, is meant. -/
def includes : Durability → Bool → Bool
  | all, _ => true
  | durable, isDurable => isDurable
  | nonDurable, isDurable => !isDurable

/-- The name of a choice in requests. -/
def name : Durability → String
  | all => "all"
  | durable => "durable"
  | nonDurable => "non-durable"

/-- The choice of that name. -/
def ofName? (text : String) : Option Durability :=
  [all, durable, nonDurable].find? fun durability => durability.name == text

end Durability

/-- The client and the name that are reported of a subscription that is not durable. -/
def anonymous : String := "ActiveMQ"

/-- The client and the name of the subscription behind a queue. -/
def identity (queueName : String) (durable : Bool) (routing : Routing) :
    Except NameError (Option String × Option String) :=
  match durable, routing with
  | true, .multicast => (decompose queueName).map fun (client, name) => (client, some name)
  | false, .multicast => .ok (some anonymous, some anonymous)
  | _, .anycast => .ok (none, none)

/-- A subscription as a record. -/
def toValue (s : Subscription) : Value :=
  .table [("queueName", .text s.queueName), ("durable", .bool s.durable),
    ("messageCount", .int s.messageCount), ("deliveringCount", .int s.deliveringCount),
    ("consumers", .list (s.consumers.map Consumer.toValue)), ("clientID", Value.ofText? s.client),
    ("selector", Value.ofText? s.filter), ("name", Value.ofText? s.name)]

/-- The fields of a subscription, in their order. -/
def fieldNames : List String :=
  ["queueName", "durable", "messageCount", "deliveringCount", "consumers", "clientID", "selector", "name"]

/-- A subscription out of a record; the client, the filter and the name may be missing. -/
def ofValue? (value : Value) : Option Subscription := do
  let reading := Reading.exact
  let fields ← reading.record? fieldNames fieldNames.length value
  return {
    queueName := ← Value.required fields "queueName" reading.text?
    durable := ← Value.required fields "durable" reading.bool?
    messageCount := ← Value.required fields "messageCount" (reading.nat? 64)
    deliveringCount := ← Value.required fields "deliveringCount" (reading.nat? 64)
    consumers := ← Value.required fields "consumers" (Value.listOf Consumer.ofValue?)
    client := ← Value.optional fields "clientID" reading.text?
    filter := ← Value.optional fields "selector" reading.text?
    name := ← Value.optional fields "name" reading.text? }

/-- Subscriptions as a JSON text. -/
def listText (subscriptions : List Subscription) : String :=
  Json.render (.list (subscriptions.map toValue))

/-- The subscriptions that a JSON text lists. -/
def ofListText? (text : String) : Option (List Subscription) :=
  (Json.parse? text).bind (Value.listOf ofValue?)

/-- Counts over the subscriptions of a topic. -/
structure Statistics where
  subscriptions : Nat := 0
  durableSubscriptions : Nat := 0
  nonDurableSubscriptions : Nat := 0
  messages : Nat := 0
  durableMessages : Nat := 0
  nonDurableMessages : Nat := 0
  delivering : Nat := 0
  deriving DecidableEq

namespace Statistics

/-- The counts with one more subscription. -/
def record (t : Statistics) (s : Subscription) : Statistics :=
  let t := { t with
    subscriptions := t.subscriptions + 1
    messages := t.messages + s.messageCount
    delivering := t.delivering + s.deliveringCount }
  if s.durable then
    { t with
      durableSubscriptions := t.durableSubscriptions + 1
      durableMessages := t.durableMessages + s.messageCount }
  else
    { t with
      nonDurableSubscriptions := t.nonDurableSubscriptions + 1
      nonDurableMessages := t.nonDurableMessages + s.messageCount }

/-- The counts over a list of subscriptions. -/
def ofList (subscriptions : List Subscription) : Statistics :=
  subscriptions.foldl record {}

/-- The counts as a record. -/
def toValue (t : Statistics) : Value :=
  .table [("subscription-count", .int t.subscriptions),
    ("durable-subscription-count", .int t.durableSubscriptions),
    ("non-durable-subscription-count", .int t.nonDurableSubscriptions),
    ("message-count", .int t.messages), ("durable-message-count", .int t.durableMessages),
    ("non-durable-message-count", .int t.nonDurableMessages), ("delivering-count", .int t.delivering)]

end Statistics

end Subscription

end BrokerAdmin
