import BrokerAdmin.Document.Value

/-!
# Messages

A message as a broker holds it: the headers that the broker knows, properties by name, and a body of
text that administration never looks at.
-/

namespace BrokerAdmin

/-- A message; its identifier is zero until a broker takes it. -/
structure Message where
  id : Nat
  userId : Option String
  durable : Bool
  /-- From 0, the lowest, to 9. -/
  priority : Nat
  /-- Milliseconds since the epoch. -/
  timestamp : Int
  /-- Milliseconds since the epoch; 0 means never. -/
  expiration : Int
  groupId : Option String
  properties : Catalog Value
  body : String

namespace Message

/-- The highest priority that a message can be given. -/
def highestPriority : Nat := 9

/-- The priority of a message that was given none. -/
def defaultPriority : Nat := 4

/-- A durable message without headers or properties. -/
def ofBody (body : String) (timestamp : Int) : Message where
  id := 0
  userId := none
  durable := true
  priority := defaultPriority
  timestamp := timestamp
  expiration := 0
  groupId := none
  properties := Catalog.empty
  body := body

/-- The message with a priority, the highest one where the given one is higher. -/
def withPriority (m : Message) (priority : Nat) : Message :=
  { m with priority := min priority highestPriority }

/-- The property of that name, if it is a text. -/
def textProperty? (m : Message) (name : String) : Option String :=
  (m.properties.get? name).bind Value.text?

end Message

end BrokerAdmin
