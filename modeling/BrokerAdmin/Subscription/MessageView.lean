import BrokerAdmin.Broker.Message
import BrokerAdmin.Document.Record
import BrokerAdmin.Json.Printer
import BrokerAdmin.Json.Reader

/-!
# Messages as clients see them

A message without its body and under the clients' names for its headers. The properties stand among
the headers of the record, so that a property named like a header makes the record malformed.
-/

namespace BrokerAdmin

/-- What is reported of a message. -/
structure MessageView where
  userId : Option String
  priority : Nat
  timestamp : Int
  expiration : Int
  durable : Bool
  id : Nat
  properties : Catalog Value

namespace MessageView

/-- What is reported of a message that a broker holds. -/
def ofMessage (m : Message) : MessageView :=
  ⟨m.userId, m.priority, m.timestamp, m.expiration, m.durable, m.id, m.properties⟩

/-- The name of a way of delivery. -/
def deliveryMode (durable : Bool) : String :=
  if durable then "PERSISTENT" else "NON_PERSISTENT"

/-- Whether a way of delivery is the durable one; it is given by its name, or by a table with that name
and nothing under it. -/
def durable? : Value → Option Bool
  | .text name | .table [(name, .null)] => [true, false].find? fun durable => deliveryMode durable == name
  | _ => none

/-- The headers of a view, in their order. -/
def headerNames : List String :=
  ["JMSMessageID", "JMSPriority", "JMSTimestamp", "JMSExpiration", "JMSDeliveryMode", "messageID"]

/-- A view as a record: the headers, then the properties in the order of their names. -/
def toValue (v : MessageView) : Value :=
  .table ([("JMSMessageID", Value.ofText? v.userId), ("JMSPriority", .int v.priority),
    ("JMSTimestamp", .int v.timestamp), ("JMSExpiration", .int v.expiration),
    ("JMSDeliveryMode", .text (deliveryMode v.durable)), ("messageID", .int v.id)] ++
      v.properties.entries)

/-- The properties among the fields of a record. -/
def propertiesOf (fields : List (String × Value)) : Catalog Value :=
  Catalog.ofList (Value.canonicalFields (fields.filter fun field => !headerNames.contains field.1))

/-- A view out of a record; only the identifier that the user gave may be missing. -/
def ofValue? : Value → Option MessageView
  | .table fields => do
    let reading := Reading.exact
    return {
      userId := ← Value.optional fields "JMSMessageID" reading.text?
      priority := ← Value.required fields "JMSPriority" (reading.nat? 8)
      timestamp := ← Value.required fields "JMSTimestamp" reading.int64?
      expiration := ← Value.required fields "JMSExpiration" reading.int64?
      durable := ← Value.required fields "JMSDeliveryMode" durable?
      id := ← Value.required fields "messageID" (reading.nat? 64)
      properties := propertiesOf fields }
  | _ => none

/-- A view as a JSON text. -/
def text (v : MessageView) : String :=
  Json.render v.toValue

/-- The view that a JSON text denotes. -/
def ofText? (s : String) : Option MessageView :=
  (Json.parse? s).bind ofValue?

/-- Views as a JSON text. -/
def listText (views : List MessageView) : String :=
  Json.render (.list (views.map toValue))

/-- The views that a JSON text lists. -/
def ofListText? (s : String) : Option (List MessageView) :=
  (Json.parse? s).bind (Value.listOf ofValue?)

/-- Whether two views are equal, numbers among the properties by their worth. -/
def same (v w : MessageView) : Bool :=
  v.userId == w.userId && v.priority == w.priority && v.timestamp == w.timestamp &&
    v.expiration == w.expiration && v.durable == w.durable && v.id == w.id &&
    Value.sameFields v.properties.entries w.properties.entries

end MessageView

end BrokerAdmin
