import BrokerAdmin.Broker.Error
import BrokerAdmin.Document.Record
import BrokerAdmin.Filter.Parser
import BrokerAdmin.Json.Printer
import BrokerAdmin.Json.Reader

/-!
# Queues

A queue is bound to one address. It holds messages waiting for delivery and messages delivered but not
yet acknowledged, each in the order of arrival, and the consumers attached to it.
-/

namespace BrokerAdmin

/-- How messages of an address reach a queue. -/
inductive Routing where
  /-- Each message goes to one queue of this kind. -/
  | anycast
  /-- Each message goes to every queue of this kind. -/
  | multicast
  deriving DecidableEq

namespace Routing

/-- The name of a routing. -/
def name : Routing → String
  | anycast => "ANYCAST"
  | multicast => "MULTICAST"

/-- The routing of that name. -/
def ofName? (text : String) : Option Routing :=
  [anycast, multicast].find? fun routing => routing.name == text

end Routing

/-- A consumer attached to a queue. -/
structure Consumer where
  id : String
  connection : String
  session : String
  browseOnly : Bool
  creationTime : Int
  deriving DecidableEq

namespace Consumer

/-- A consumer as a record. -/
def toValue (c : Consumer) : Value :=
  .table [("consumerID", .text c.id), ("connectionID", .text c.connection),
    ("sessionID", .text c.session), ("browseOnly", .bool c.browseOnly),
    ("creationTime", .int c.creationTime)]

/-- The fields of a consumer, in their order. -/
def fieldNames : List String :=
  ["consumerID", "connectionID", "sessionID", "browseOnly", "creationTime"]

/-- A consumer out of a record; every field may be missing. -/
def ofValue? (value : Value) : Option Consumer := do
  let reading := Reading.exact
  let fields ← reading.record? fieldNames 0 value
  let id ← Value.defaulted fields "consumerID" reading.text? ""
  let connection ← Value.defaulted fields "connectionID" reading.text? ""
  let session ← Value.defaulted fields "sessionID" reading.text? ""
  let browseOnly ← Value.defaulted fields "browseOnly" reading.bool? false
  let creationTime ← Value.defaulted fields "creationTime" reading.int64? 0
  return ⟨id, connection, session, browseOnly, creationTime⟩

/-- Consumers as a JSON text. -/
def listText (consumers : List Consumer) : String :=
  Json.render (.list (consumers.map toValue))

/-- The consumers that a JSON text lists. What it says of them beyond their fields is passed over. -/
def ofListText? (text : String) : Option (List Consumer) :=
  (Json.parseIgnoring? (fun name => !fieldNames.contains name) text).bind (Value.listOf ofValue?)

end Consumer

/-- What a queue is created with. -/
structure QueueOptions where
  durable : Bool := true
  routing : Routing := .multicast
  /-- Only matching messages enter the queue. -/
  filter : Option String := none
  deriving DecidableEq

/-- A queue. -/
structure Queue where
  address : String
  options : QueueOptions
  /-- Waiting for delivery. -/
  messages : List Message
  /-- Delivered and not yet acknowledged. -/
  delivering : List Message
  consumers : List Consumer

namespace Broker

/-- The expression that a filter text denotes. -/
def readFilter (text : String) : Except Error Filter.Expr :=
  (Filter.parse text).mapError fun e => .invalidFilter (e.message text)

/-- The expression that an optional filter text denotes; none where it is missing or blank. -/
def readOptionalFilter (text : Option String) : Except Error (Option Filter.Expr) :=
  (Filter.parseOptional text).mapError fun e => .invalidFilter (e.message (text.getD ""))

end Broker

namespace Queue

/-- A queue without messages. -/
def create (address : String) (options : QueueOptions) : Queue :=
  ⟨address, options, [], [], []⟩

/-- Whether a message may enter the queue. -/
def admits (q : Queue) (m : Message) : Except Broker.Error Bool :=
  match q.options.filter with
  | none => .ok true
  | some text => (Broker.readFilter text).map (·.accepts m)

/-- All messages that the queue holds, the waiting ones first. -/
def held (q : Queue) : List Message :=
  q.messages ++ q.delivering

end Queue

/-- What is known of a queue to whoever got hold of it: its name and how it was created. -/
structure QueueControl where
  name : String
  options : QueueOptions
  deriving DecidableEq

/-- What is known of an address to whoever got hold of it. -/
structure AddressControl where
  address : String
  /-- The queues bound to the address, its placeholder among them. -/
  queues : List String
  /-- The queue that only keeps the address alive. -/
  placeholder : Option String
  deriving DecidableEq

end BrokerAdmin
