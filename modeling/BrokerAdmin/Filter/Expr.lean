import BrokerAdmin.Broker.Message
import BrokerAdmin.Filter.Token

/-!
# Filter expressions

A filter is a Boolean combination of predicates on named values. What the names stand for is a
parameter of evaluation, so that one expression can be judged under several readings of the names; the
broker's reading of a message stands at the end. A comparison of values of different types, or with
a missing value, never holds.
-/

namespace BrokerAdmin.Filter

/-- A value that a predicate compares. -/
inductive Literal where
  | text (value : String)
  | number (value : Binary64)
  | truth (value : Bool)
  deriving DecidableEq

/-- A filter expression; conjunctions and disjunctions have two terms or more. -/
inductive Expr where
  | compare (name : String) (op : Comparison) (literal : Literal)
  | isNull (name : String) (wanted : Bool)
  | all (terms : List Expr)
  | any (terms : List Expr)
  | not (term : Expr)

namespace Comparison

/-- Whether two numbers in the given order satisfy a comparison; numbers without order satisfy none. -/
def ofOrder : Comparison → Option Ordering → Bool
  | _, none => false
  | eq, some o => o == .eq
  | ne, some o => o != .eq
  | lt, some o => o == .lt
  | le, some o => o != .gt
  | gt, some o => o == .gt
  | ge, some o => o != .lt

/-- Whether values that have no order satisfy a comparison. -/
def ofEquality : Comparison → Bool → Bool
  | eq, equal => equal
  | ne, equal => !equal
  | _, _ => false

end Comparison

/-- Whether a comparison holds between a value, if there is one, and a literal. -/
def Literal.satisfies (value : Option Literal) (op : Comparison) (literal : Literal) : Bool :=
  match value, literal with
  | some (.number x), .number y => op.ofOrder (x.compare? y)
  | some (.text s), .text t => op.ofEquality (s == t)
  | some (.truth a), .truth b => op.ofEquality (a == b)
  | _, _ => false

namespace Expr

mutual

/-- Whether an expression holds when names stand for the given values. -/
def holds (read : String → Option Literal) : Expr → Bool
  | compare name op literal => Literal.satisfies (read name) op literal
  | isNull name wanted => (read name).isNone == wanted
  | all terms => holdsAll read terms
  | any terms => holdsAny read terms
  | not term => !holds read term

/-- Whether all terms hold. -/
def holdsAll (read : String → Option Literal) : List Expr → Bool
  | [] => true
  | term :: rest => holds read term && holdsAll read rest

/-- Whether some term holds. -/
def holdsAny (read : String → Option Literal) : List Expr → Bool
  | [] => false
  | term :: rest => holds read term || holdsAny read rest

end

end Expr

/-- The value of a property, where it is one that predicates compare. -/
def Literal.ofValue? : Value → Option Literal
  | .text s => some (.text s)
  | .int n => some (.number (.ofInt n))
  | .float x => some (.number x)
  | .bool b => some (.truth b)
  | _ => none

/-- The names under which the broker reads the headers of a message. -/
def headerNames : List String :=
  ["AMQPriority", "AMQDurable", "AMQTimestamp", "AMQExpiration", "AMQUserID", "AMQGroupID"]

/-- What a name stands for in a message: a header, or else the property of that name. -/
def read (m : Message) (name : String) : Option Literal :=
  match name with
  | "AMQPriority" => some (.number (.ofInt m.priority))
  | "AMQDurable" => some (.text (if m.durable then "DURABLE" else "NON_DURABLE"))
  | "AMQTimestamp" => some (.number (.ofInt m.timestamp))
  | "AMQExpiration" => some (.number (.ofInt m.expiration))
  | "AMQUserID" => m.userId.map .text
  | "AMQGroupID" => m.groupId.map .text
  | _ => (m.properties.get? name).bind Literal.ofValue?

/-- Whether a message matches an expression. -/
def Expr.accepts (e : Expr) (m : Message) : Bool :=
  e.holds (read m)

/-- Whether a message matches an expression, if there is one. -/
def accepts (filter : Option Expr) (m : Message) : Bool :=
  filter.all (·.accepts m)

end BrokerAdmin.Filter
