import BrokerAdmin.Subscription.MessageView
import BrokerAdmin.Subscription.Snapshot

/-!
# Operations on topics

What can be asked of the administration of a topic, and what it replies. A request is a table that
names the operation and holds its parameters, or a list with the name in front.
-/

namespace BrokerAdmin.Subscription

/-- An operation on a topic. -/
inductive Operation where
  | list (durability : Durability) (asText : Bool)
  | listMessages (queueName : String) (asText : Bool)
  | countMessages (client name : String) (selector : Option String)
  | dropDurable (client name : String)
  | dropAll
  | removeMessages (selector : Option String)
  | pause (persist : Bool)
  | resume
  deriving DecidableEq

/-- What an operation replies when it succeeds. -/
inductive Reply where
  | subscriptions (items : List Subscription)
  | messages (items : List MessageView)
  | text (json : String)
  | count (n : Nat)
  | none

namespace Operation

/-- The name of an operation that may reply by a text. -/
def textual (name : String) (asText : Bool) : String :=
  if asText then name ++ "-as-json" else name

/-- The name of an operation. -/
def name : Operation → String
  | list .all asText => textual "list-all-subscriptions" asText
  | list .durable asText => textual "list-durable-subscriptions" asText
  | list .nonDurable asText => textual "list-non-durable-subscriptions" asText
  | listMessages _ asText => textual "list-messages-for-subscription" asText
  | countMessages .. => "count-messages-for-subscription"
  | dropDurable .. => "drop-durable-subscription"
  | dropAll => "drop-all-subscriptions"
  | removeMessages _ => "remove-messages"
  | pause _ => "pause"
  | resume => "resume"

/-- Whether an operation leaves the broker as it is. -/
def isReadOnly : Operation → Bool
  | list .. | listMessages .. | countMessages .. => true
  | dropDurable .. | dropAll | removeMessages _ | pause _ | resume => false

/-- The parameters of an operation. -/
def parameters : Operation → List (String × Value)
  | list .. | dropAll | resume => []
  | listMessages queueName _ => [("queue-name", .text queueName)]
  | countMessages client name selector =>
    [("client-id", .text client), ("subscription-name", .text name), ("filter", Value.ofText? selector)]
  | dropDurable client name => [("client-id", .text client), ("subscription-name", .text name)]
  | removeMessages selector => [("filter", Value.ofText? selector)]
  | pause persist => [("persist", .bool persist)]

/-- An operation as a request. -/
def toValue (operation : Operation) : Value :=
  .table (("operation", .text operation.name) :: operation.parameters)

/-- The name of the operation that is requested, and its parameters. -/
def tagged? : Value → Option (String × Value)
  | .table fields => do
    let name ← Value.required fields "operation" Value.text?
    return (name, .table (fields.filter fun field => field.1 != "operation"))
  | .list (.text name :: parameters) => some (name, .list parameters)
  | _ => none

/-- An operation without parameters. -/
def withoutParameters? (operation : Operation) (parameters : Value) : Option Operation :=
  (Reading.exact.record? [] 0 parameters).map fun _ => operation

/-- The request for the messages of a queue. -/
def listMessages? (asText : Bool) (parameters : Value) : Option Operation := do
  let fields ← Reading.exact.record? ["queue-name"] 1 parameters
  return .listMessages (← Value.required fields "queue-name" Value.text?) asText

/-- The request for the number of messages. -/
def countMessages? (parameters : Value) : Option Operation := do
  let fields ← Reading.exact.record? ["client-id", "subscription-name", "filter"] 2 parameters
  let client ← Value.required fields "client-id" Value.text?
  let name ← Value.required fields "subscription-name" Value.text?
  return .countMessages client name (← Value.optional fields "filter" Value.text?)

/-- The request to drop a subscription. -/
def dropDurable? (parameters : Value) : Option Operation := do
  let fields ← Reading.exact.record? ["client-id", "subscription-name"] 2 parameters
  let client ← Value.required fields "client-id" Value.text?
  return .dropDurable client (← Value.required fields "subscription-name" Value.text?)

/-- The request to remove messages. -/
def removeMessages? (parameters : Value) : Option Operation := do
  let fields ← Reading.exact.record? ["filter"] 0 parameters
  return .removeMessages (← Value.optional fields "filter" Value.text?)

/-- The request to pause. -/
def pause? (parameters : Value) : Option Operation := do
  let fields ← Reading.exact.record? ["persist"] 0 parameters
  return .pause (← Value.defaulted fields "persist" Reading.exact.bool? false)

/-- The operations without parameters. -/
def plain : List Operation :=
  [list .all false, list .all true, list .durable false, list .durable true, list .nonDurable false,
   list .nonDurable true, dropAll, resume]

/-- The operation that a request asks for. -/
def ofValue? (request : Value) : Option Operation := do
  let (name, parameters) ← tagged? request
  match name with
  | "list-messages-for-subscription" => listMessages? false parameters
  | "list-messages-for-subscription-as-json" => listMessages? true parameters
  | "count-messages-for-subscription" => countMessages? parameters
  | "drop-durable-subscription" => dropDurable? parameters
  | "remove-messages" => removeMessages? parameters
  | "pause" => pause? parameters
  | _ =>
    (plain.find? fun operation => operation.name == name).bind fun operation =>
      operation.withoutParameters? parameters

end Operation

end BrokerAdmin.Subscription
