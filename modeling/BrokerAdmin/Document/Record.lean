import BrokerAdmin.Binary64.Reading
import BrokerAdmin.Binary64.Written
import BrokerAdmin.Document.Value
import BrokerAdmin.Text.Letter
import BrokerAdmin.Text.Numeral

/-!
# Records in documents

A record is given by a table, or by a list of its values in the order of its fields. Fields that the
record does not know are ignored, and a known field that stands twice makes the table malformed. How a
scalar is taken for the type a field wants is a parameter, and so is whether a list may be longer than
the record: requests and properties are taken by their types and have no values left over, a text with
settings may have such, and settings gathered from several sources also convert between the scalar types.

Dates and times are no kind of value here. Where a document can have them, they are shown as tables with one
field of a name that no record has, so a record of which nothing must be given can be taken from them.
-/

namespace BrokerAdmin

namespace Value

/-- The name of the field of a date or time that is shown as a table. -/
def momentField : String := "$__toml_private_datetime"

/-- A date or time as a table, by its text. -/
def moment (written : String) : Value :=
  table [(momentField, text written)]

/-- Whether fields are those of a date or time. -/
def isMoment : List (String × Value) → Bool
  | [(name, text _)] => name == momentField
  | _ => false

end Value

/-- How records are taken from documents: how a scalar is taken for the type that a field wants, whether
a list that stands for a record may hold more values than it has fields, which are then ignored, and whether
a date or time may stand for a record. -/
structure Reading where
  text? : Value → Option String
  bool? : Value → Option Bool
  int? : Value → Option Int
  number? : Value → Option Binary64
  surplus : Bool
  moments : Bool

namespace Reading

/-- Every scalar is taken by its type, where only a whole number also stands for a binary one, and no list
is too long. -/
def exact : Reading where
  text? := Value.text?
  bool?
    | .bool b => some b
    | _ => none
  int?
    | .int n => some n
    | _ => none
  number?
    | .float x => some x
    | .int n => some (.ofInt n)
    | _ => none
  surplus := false
  moments := true

/-- Every scalar is taken by its type, and a list may be too long. -/
def typed : Reading :=
  { exact with surplus := true }

/-- Everything is taken by its type, so that no date or time is taken for a record. -/
def strict : Reading :=
  { typed with moments := false }

/-- The bounds of a signed number of 64 bits. -/
def clamp64 (n : Int) : Int :=
  max (-2 ^ 63) (min (2 ^ 63 - 1) n)

/-- Words that stand for a truth value, in either case. -/
def truth? (s : String) : Option Bool :=
  match Text.lower s with
  | "true" | "on" | "yes" => some true
  | "false" | "off" | "no" => some false
  | _ => none

/-- A whole number of 64 bits with an optional sign. -/
def signed64? (s : String) : Option Int :=
  let (negative, digits) := Binary64.splitSign s.toList
  let size : Int := Text.digitsValue 0 digits
  let n := if negative then -size else size
  if !digits.isEmpty && digits.all Char.isDigit && n == clamp64 n then some n else none

/-- Scalars are converted to the type that is wanted. A binary number becomes the nearest whole one, a
half going away from zero, within the bounds of 64 bits; truth values count as one and zero; texts are
read; and any scalar can be written as a text. A list may be too long. -/
def converting : Reading where
  text?
    | .text s => some s
    | .bool b => some (if b then "true" else "false")
    | .int n => some (Text.ofInt n)
    | .float x => some (x.written Binary64.plainLayout)
    | _ => none
  bool?
    | .bool b => some b
    | .int n => some (n != 0)
    | .float x => some (!x.same (.ofInt 0))
    | .text s => if s = "1" then some true else if s = "0" then some false else truth? s
    | _ => none
  int?
    | .int n => some n
    | .bool b => some (if b then 1 else 0)
    | .float (.finite negative m q) => some (clamp64 (Binary64.roundAway negative m q))
    | .float (.infinite negative) => some (clamp64 (if negative then -2 ^ 64 else 2 ^ 64))
    | .float .nan => some 0
    | .text s => (truth? s).elim (signed64? s) fun b => some (if b then 1 else 0)
    | _ => none
  number?
    | .float x => some x
    | .int n => some (.ofInt n)
    | .bool b => some (.ofInt (if b then 1 else 0))
    | .text s => (truth? s).elim (Binary64.ofText? s.toList) fun b => some (.ofInt (if b then 1 else 0))
    | _ => none
  surplus := true
  moments := true

/-- A whole number within bounds. -/
def intIn? (reading : Reading) (least greatest : Int) (value : Value) : Option Int :=
  (reading.int? value).filter fun n => decide (least ≤ n) && decide (n ≤ greatest)

/-- A signed number of 64 bits. -/
def int64? (reading : Reading) : Value → Option Int :=
  reading.intIn? (-2 ^ 63) (2 ^ 63 - 1)

/-- A natural number below `2 ^ bits`. -/
def nat? (reading : Reading) (bits : Nat) (value : Value) : Option Nat :=
  (reading.intIn? 0 (2 ^ bits - 1) value).map Int.toNat

/-- The fields of a record with the given fields, of which at least the first `least` must be given
where the record is a list. -/
def record? (reading : Reading) (names : List String) (least : Nat) :
    Value → Option (List (String × Value))
  | .table fields => if reading.moments || !Value.isMoment fields then some fields else none
  | .list items =>
    if least ≤ items.length ∧ (reading.surplus = true ∨ items.length ≤ names.length) then
      some (names.zip items)
    else none
  | _ => none

end Reading

namespace Value

/-- The value of a field, if it is there; malformed where it stands twice. -/
def field? (fields : List (String × Value)) (name : String) : Option (Option Value) :=
  match fields.filter fun field => field.1 == name with
  | [] => some none
  | [field] => some (some field.2)
  | _ => none

/-- A field that must be there. -/
def required {α : Type} (fields : List (String × Value)) (name : String) (read : Value → Option α) :
    Option α :=
  (field? fields name).bind fun value => value.bind read

/-- A field that may be missing, with the value it has then. -/
def defaulted {α : Type} (fields : List (String × Value)) (name : String) (read : Value → Option α)
    (default : α) : Option α :=
  (field? fields name).bind fun value => value.elim (some default) read

/-- A value that may be null. -/
def nullable {α : Type} (read : Value → Option α) : Value → Option (Option α)
  | null => some none
  | value => (read value).map some

/-- A field that may be missing or null. -/
def optional {α : Type} (fields : List (String × Value)) (name : String) (read : Value → Option α) :
    Option (Option α) :=
  defaulted fields name (nullable read) none

/-- The items of a list, each read the same way. -/
def listOf {α : Type} (read : Value → Option α) : Value → Option (List α)
  | list items => items.mapM read
  | _ => none

/-- The entries of a table, each read the same way; of repeated ones the last stays. -/
def catalogOf {α : Type} (read : Value → Option α) : Value → Option (Catalog α)
  | table fields =>
    (fields.mapM fun field => (read field.2).map fun value => (field.1, value)).map Catalog.ofList
  | _ => none

/-- A text or null. -/
def ofText? (s : Option String) : Value :=
  s.elim null text

end Value

end BrokerAdmin
