/-!
# Names of subscription queues

The queue behind a subscription is named after the client and the subscription, with a dot in between.
Dots and backslashes inside either part are escaped by a backslash, so that the dot in between can be
told from them. A shared subscription has no client and is named after itself alone.

Decomposing reads an escape before any character, not only before those that need one, and reports an
empty client as none; names that escaping has produced are decomposed into the parts that they were made of.
-/

namespace BrokerAdmin.Subscription

/-- A character of one part as it stands in the name of a queue. -/
def escapeChar (c : Char) : List Char :=
  if c = '\\' ∨ c = '.' then ['\\', c] else [c]

/-- The characters of one part as they stand in the name of a queue. -/
def escapeChars (part : List Char) : List Char :=
  part.flatMap escapeChar

/-- One part as it stands in the name of a queue. -/
def escape (part : String) : String :=
  String.ofList (escapeChars part.toList)

/-- The queue of a durable subscription. -/
def durableQueueName (client : Option String) (name : String) : String :=
  match client with
  | some client => escape client ++ "." ++ escape name
  | none => escape name

/-- What the queues of subscriptions that are not durable begin with. -/
def nonDurableMark : String := "nonDurable."

/-- The queue of a named subscription that is not durable. -/
def nonDurableQueueName (client : Option String) (name : String) : String :=
  nonDurableMark ++ durableQueueName client name

/-- Why the name of a queue is not that of a subscription. -/
inductive NameFault where
  | trailingEscape
  | manySeparators
  deriving DecidableEq

/-- The wording of a fault. -/
def NameFault.reason : NameFault → String
  | trailingEscape => "trailing escape character"
  | manySeparators => "more than one separator"

/-- The name of a queue that is not that of a subscription. -/
structure NameError where
  queueName : String
  fault : NameFault
  deriving DecidableEq

/-- The wording of an error. -/
def NameError.message (e : NameError) : String :=
  "Invalid subscription queue name '" ++ e.queueName ++ "': " ++ e.fault.reason

/-- The part before the first separator, and what follows the separator if there is one. -/
def component : List Char → Except NameFault (List Char × Option (List Char))
  | [] => .ok ([], none)
  | ['\\'] => .error .trailingEscape
  | '\\' :: c :: rest => (component rest).map fun (part, more) => (c :: part, more)
  | '.' :: rest => .ok ([], some rest)
  | c :: rest => (component rest).map fun (part, more) => (c :: part, more)

/-- The client, if there is one, and the subscription out of the characters of a queue's name. -/
def decomposeChars (chars : List Char) : Except NameFault (Option (List Char) × List Char) := do
  match ← component chars with
  | (name, none) => return (none, name)
  | (client, some rest) =>
    match ← component rest with
    | (name, none) => return (if client.isEmpty then none else some client, name)
    | (_, some _) => throw .manySeparators

/-- The client, if there is one, and the subscription that a durable queue is named after. -/
def decompose (queueName : String) : Except NameError (Option String × String) :=
  match decomposeChars queueName.toList with
  | .ok (client, name) => .ok (client.map String.ofList, String.ofList name)
  | .error fault => .error ⟨queueName, fault⟩

/-- What the addresses of topics begin with. -/
def topicMark : String := "jms.topic."

/-- The address of a topic; a topic may be given by its address already. -/
def topicAddress (topic : String) : String :=
  if topicMark.toList.isPrefixOf topic.toList then topic else topicMark ++ topic

end BrokerAdmin.Subscription
