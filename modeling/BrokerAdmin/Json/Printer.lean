import BrokerAdmin.Binary64.Written
import BrokerAdmin.Document.Value
import BrokerAdmin.Text.Numeral

/-!
# Writing JSON

A value as JSON text: compact, or with one item a line and two spaces for each level. In strings only
the double quote, the backslash and the characters below U+0020 are escaped. A number that JSON cannot
write becomes `null`.
-/

namespace BrokerAdmin.Json

/-- The two lower-case hexadecimal digits of a code below 256. -/
def hexPair (code : Nat) : List Char :=
  [Nat.digitChar (code / 16), Nat.digitChar (code % 16)]

/-- A character as it stands inside a string. -/
def escaped (c : Char) : List Char :=
  match c with
  | '"' => ['\\', '"']
  | '\\' => ['\\', '\\']
  | '\x08' => ['\\', 'b']
  | '\t' => ['\\', 't']
  | '\n' => ['\\', 'n']
  | '\x0c' => ['\\', 'f']
  | '\r' => ['\\', 'r']
  | _ => if c.toNat < 0x20 then ['\\', 'u', '0', '0'] ++ hexPair c.toNat else [c]

/-- A text as a string. -/
def string (s : String) : List Char :=
  '"' :: s.toList.flatMap escaped ++ ['"']

/-- A number in binary floating point. -/
def number (x : Binary64) : List Char :=
  if x.isFinite then (x.written Binary64.documentLayout).toList else "null".toList

/-- A value that has no parts. -/
def scalar : Value → List Char
  | .null => "null".toList
  | .bool b => (if b then "true" else "false").toList
  | .int n => Text.numeral n
  | .float x => number x
  | .text s => string s
  | .list _ | .table _ => []

mutual

/-- The characters of a value, without any space. -/
def compact : Value → List Char
  | .list items => '[' :: compactItems items ++ [']']
  | .table fields => '\x7b' :: compactFields fields ++ ['\x7d']
  | value => scalar value

/-- The items of a list, separated by commas. -/
def compactItems : List Value → List Char
  | [] => []
  | [item] => compact item
  | item :: rest => compact item ++ ',' :: compactItems rest

/-- The fields of a table, separated by commas. -/
def compactFields : List (String × Value) → List Char
  | [] => []
  | [(name, value)] => string name ++ ':' :: compact value
  | (name, value) :: rest => string name ++ ':' :: compact value ++ ',' :: compactFields rest

end

/-- A line break and the space before a line of the given level. -/
def lineBreak (level : Nat) : List Char :=
  '\n' :: List.replicate (2 * level) ' '

mutual

/-- The characters of a value whose first line belongs to a line of the given level. -/
def indented (level : Nat) : Value → List Char
  | .list [] => ['[', ']']
  | .list items => '[' :: indentedItems (level + 1) items ++ lineBreak level ++ [']']
  | .table [] => ['\x7b', '\x7d']
  | .table fields => '\x7b' :: indentedFields (level + 1) fields ++ lineBreak level ++ ['\x7d']
  | value => scalar value

/-- The items of a list, each on a line of the given level. -/
def indentedItems (level : Nat) : List Value → List Char
  | [] => []
  | [item] => lineBreak level ++ indented level item
  | item :: rest => lineBreak level ++ indented level item ++ ',' :: indentedItems level rest

/-- The fields of a table, each on a line of the given level. -/
def indentedFields (level : Nat) : List (String × Value) → List Char
  | [] => []
  | [(name, value)] => lineBreak level ++ string name ++ ':' :: ' ' :: indented level value
  | (name, value) :: rest =>
    lineBreak level ++ string name ++ ':' :: ' ' :: indented level value ++
      ',' :: indentedFields level rest

end

/-- The compact JSON text of a value. -/
def render (value : Value) : String :=
  String.ofList (compact value)

/-- The JSON text of a value over several lines. -/
def renderIndented (value : Value) : String :=
  String.ofList (indented 0 value)

end BrokerAdmin.Json
