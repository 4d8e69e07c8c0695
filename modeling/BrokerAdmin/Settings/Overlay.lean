import BrokerAdmin.Document.Value
import BrokerAdmin.Text.Numeral

/-!
# Laying settings over each other

Settings come from several sources, a later one being laid over the earlier: where both have a table, key
by key, and else in its place. A source names the place of a value by a path, which makes tables and lists
of whatever is in its way.
-/

namespace BrokerAdmin

namespace Value

/-- The fields of a value as a table; something else has none. -/
def fieldsOf : Value → List (String × Value)
  | table fields => fields
  | _ => []

/-- The items of a value as a list; something else has none. -/
def itemsOf : Value → List Value
  | list items => items
  | _ => []

/-- The fields with a value under a name, in its place if the name is there. -/
def put (name : String) (value : Value) : List (String × Value) → List (String × Value)
  | [] => [(name, value)]
  | field :: rest =>
    if field.1 = name then (name, value) :: rest else field :: put name value rest

/-- The value under a name; null where there is none. -/
def under (fields : List (String × Value)) (name : String) : Value :=
  (fields.lookup name).getD null

mutual

/-- A value laid over another. -/
def laidOver (base : Value) : Value → Value
  | table fields => table (fieldsOver base.fieldsOf fields)
  | value => value

/-- The fields of a table laid over those of another. -/
def fieldsOver (base : List (String × Value)) : List (String × Value) → List (String × Value)
  | [] => base
  | (name, value) :: rest => fieldsOver (put name ((under base name).laidOver value) base) rest

end

end Value

namespace Settings

/-- A step from a value to a part of it. -/
inductive Step where
  | field (name : String)
  /-- A place in a list, counted from the end if it is negative. -/
  | item (place : Int)
  deriving DecidableEq

/-- The list with room for a place, and the place counted from the start. -/
def makeRoom (items : List Value) (place : Int) : List Value × Nat :=
  if 0 ≤ place then
    (items ++ List.replicate (place.toNat + 1 - items.length) .null, place.toNat)
  else if place.natAbs ≤ items.length then (items, items.length - place.natAbs)
  else (List.replicate (place.natAbs - items.length) .null ++ items, 0)

/-- A value with another laid over the part at the end of some steps. -/
def setAt (value : Value) : List Step → Value → Value
  | [], base => base.laidOver value
  | .field name :: steps, base =>
    let fields := base.fieldsOf
    .table (Value.put name (setAt value steps (Value.under fields name)) fields)
  | .item place :: steps, base =>
    let (items, n) := makeRoom base.itemsOf place
    .list (items.modify n (setAt value steps))

/-- Whether a name in a path can hold a character. -/
def isPathChar (c : Char) : Bool :=
  c.isAlphanum || c == '_' || c == '-'

/-- The place in brackets after the opening one, with spaces around it, and what follows the closing
one. -/
def place? (chars : List Char) : Option (Int × List Char) :=
  let isSpace : Char → Bool := fun c => c == ' ' || c == '\t'
  let chars := chars.dropWhile isSpace
  let (negative, chars) := if chars.head? == some '-' then (true, chars.tail) else (false, chars)
  let (digits, rest) := chars.span Char.isDigit
  let size : Int := Text.digitsValue 0 digits
  let n := if negative then -size else size
  match rest.dropWhile isSpace with
  | ']' :: rest => if digits.isEmpty || n < -2 ^ 63 || 2 ^ 63 ≤ n then none else some (n, rest)
  | _ => none

/-- The steps after the first name of a path; at most `limit` of them. -/
def steps? : Nat → List Char → Option (List Step)
  | _, [] => some []
  | limit + 1, '.' :: rest =>
    let (name, rest) := rest.span isPathChar
    if name.isEmpty then none else (steps? limit rest).map (.field (String.ofList name) :: ·)
  | limit + 1, '[' :: rest => do
    let (place, rest) ← place? rest
    return .item place :: (← steps? limit rest)
  | _, _ => none

/-- The steps that a key stands for: a name, then further names after dots and places in brackets. A key
of any other form is a name as a whole. -/
def stepsOf (key : String) : List Step :=
  let (name, rest) := key.toList.span isPathChar
  match if name.isEmpty then none else steps? rest.length rest with
  | some steps => .field (String.ofList name) :: steps
  | none => [.field key]

/-- A value with another laid over the part under a key. -/
def set (base : Value) (key : String) (value : Value) : Value :=
  setAt value (stepsOf key) base

end Settings

end BrokerAdmin
