import BrokerAdmin.Toml.Number
import BrokerAdmin.Toml.Table
import BrokerAdmin.Toml.Text

/-!
# Reading TOML

A TOML document as a table, and nothing where it is malformed. The document is a sequence of
lines, each a header, a key with its value, or neither; it is cut into these statements first, and the
tables are built up from them. All of it goes by the given rules.
-/

namespace BrokerAdmin.Toml

/-- A key by its parts, the last apart. -/
structure Key where
  path : List String
  last : String
  deriving DecidableEq

/-- The parts of a key. -/
def Key.parts (key : Key) : List String :=
  key.path ++ [key.last]

/-- Whether a character may stand in a key without quotes. -/
def isBare (c : Char) : Bool :=
  c.isAlphanum || c == '_' || c == '-'

/-- One part of a key. -/
def keyPart? (rules : Rules) (chars : List Char) : TextReading :=
  match lineText? rules chars with
  | some reading => some reading
  | none =>
    let (bare, rest) := chars.span isBare
    if bare.isEmpty then none else some (bare, rest)

/-- The parts of a key, separated by dots with white space around them; at most `limit` of them. -/
def keyParts? (rules : Rules) : Nat → List Char → Option (List String × List Char)
  | 0, _ => none
  | limit + 1, chars => do
    let (part, rest) ← keyPart? rules (skipSpace chars)
    match skipSpace rest with
    | '.' :: rest =>
      let (parts, rest) ← keyParts? rules limit rest
      return (String.ofList part :: parts, rest)
    | rest => return ([String.ofList part], rest)

/-- A key, and what follows it and the white space after it. -/
def key? (rules : Rules) (chars : List Char) : Option (Key × List Char) := do
  let (parts, rest) ← keyParts? rules rules.depth chars
  let last ← parts.getLast?
  return (⟨parts.dropLast, last⟩, rest)

/-- The text after a comment, if there is one here. -/
def skipComment : List Char → List Char
  | '#' :: rest => rest.dropWhile isPlain
  | rest => rest

/-- The text after white space, line breaks and comments; at most `limit` lines are passed. -/
def skipLines : Nat → List Char → List Char
  | 0, chars => chars
  | limit + 1, chars =>
    let rest := skipComment (skipSpace chars)
    match lineBreak? rest with
    | some rest => skipLines limit rest
    | none => rest

/-- The text after white space, line breaks and comments. -/
def skipBlank (chars : List Char) : List Char :=
  skipLines chars.length chars

/-- A reader of values, and what follows them. -/
abbrev ValueReader := List Char → Option (Datum × List Char)

/-- The items of a list after its opening bracket or a comma, up to the closing bracket; at most
`limit` of them. -/
def items? (value? : ValueReader) : Nat → List Char → Option (List Datum × List Char)
  | 0, _ => none
  | limit + 1, chars =>
    match skipBlank chars with
    | ']' :: rest => some ([], rest)
    | chars => do
      let (item, rest) ← value? chars
      match skipBlank rest with
      | ']' :: rest => return ([item], rest)
      | ',' :: rest =>
        let (items, rest) ← items? value? limit rest
        return (item :: items, rest)
      | _ => none

/-- A key, an equals sign and a value. -/
def assignment? (rules : Rules) (value? : ValueReader) (chars : List Char) :
    Option ((Key × Datum) × List Char) := do
  let (key, rest) ← key? rules chars
  match rest with
  | '=' :: rest =>
    let (value, rest) ← value? (skipSpace rest)
    return ((key, value), rest)
  | _ => none

/-- The text after what may separate the parts of an inline table: white space, and from version 1.1 on
line breaks and comments too. -/
def skipInside (rules : Rules) (chars : List Char) : List Char :=
  if rules.version11 then skipBlank chars else skipSpace chars

/-- The assignments of an inline table after its opening brace or a comma, up to the closing brace; at
most `limit` of them. Where `closes`, the brace may follow at once. -/
def assignments? (rules : Rules) (value? : ValueReader) :
    Nat → Bool → List Char → Option (List (Key × Datum) × List Char)
  | 0, _, _ => none
  | limit + 1, closes, chars => do
    match closes, skipInside rules chars with
    | true, '\x7d' :: rest => return ([], rest)
    | _, chars =>
      let (assignment, rest) ← assignment? rules value? chars
      match skipInside rules rest with
      | '\x7d' :: rest => return ([assignment], rest)
      | ',' :: rest =>
        let (assignments, rest) ← assignments? rules value? limit rules.version11 rest
        return (assignment :: assignments, rest)
      | _ => none

/-- The table that a list of assignments makes up. -/
def inlineTable? (rules : Rules) (assignments : List (Key × Datum)) : Option Datum := do
  let fields ← assignments.foldlM
    (fun fields (key, value) => Fields.assign rules key.path key.last value fields) []
  return .table (Fields.data fields)

/-- A word that stands for a value. -/
def word? (word : String) (value : Datum) (chars : List Char) : Option (Datum × List Char) :=
  if word.toList.isPrefixOf chars then some (value, chars.drop word.length) else none

/-- A value without lists and tables in it. -/
def scalar? (rules : Rules) (chars : List Char) : Option (Datum × List Char) :=
  match chars with
  | '"' :: _ | '\'' :: _ => (text? rules chars).map fun (body, rest) => (.text (String.ofList body), rest)
  | 't' :: _ => word? "true" (.bool true) chars
  | 'f' :: _ => word? "false" (.bool false) chars
  | _ =>
    match moment? rules chars with
    | some (moment, rest) => some (.moment moment, rest)
    | none => number? rules chars

/-- A value in which lists and inline tables may be nested as deep as the allowance. -/
def value? (rules : Rules) : Nat → ValueReader
  | 0, chars =>
    match chars with
    | '[' :: _ | '\x7b' :: _ => none
    | _ => scalar? rules chars
  | allowance + 1, chars =>
    match chars with
    | '[' :: rest =>
      (items? (value? rules allowance) chars.length rest).map fun (items, rest) => (.list items, rest)
    | '\x7b' :: rest => do
      let (assignments, rest) ← assignments? rules (value? rules allowance) chars.length true rest
      return (← inlineTable? rules assignments, rest)
    | _ => scalar? rules chars

/-- A statement of a document. -/
inductive Statement where
  | table (key : Key)
  | item (key : Key)
  | assignment (key : Key) (value : Datum)

/-- A statement, and what follows it. -/
def statement? (rules : Rules) : List Char → Option (Statement × List Char)
  | '[' :: '[' :: rest => do
    let (key, rest) ← key? rules rest
    match rest with
    | ']' :: ']' :: rest => return (.item key, rest)
    | _ => none
  | '[' :: rest => do
    let (key, rest) ← key? rules rest
    match rest with
    | ']' :: rest => return (.table key, rest)
    | _ => none
  | chars => do
    let ((key, value), rest) ← assignment? rules (value? rules rules.depth) chars
    return (.assignment key value, rest)

/-- The text after the end of a statement's line. -/
def lineEnd? (chars : List Char) : Option (List Char) :=
  match skipComment (skipSpace chars) with
  | [] => some []
  | rest => lineBreak? rest

/-- The statements of a document; at most `limit` of them. -/
def statements? (rules : Rules) : Nat → List Char → Option (List Statement)
  | 0, _ => none
  | limit + 1, chars =>
    match skipBlank chars with
    | [] => some []
    | chars => do
      let (statement, rest) ← statement? rules chars
      let rest ← lineEnd? rest
      return statement :: (← statements? rules limit rest)

/-- The tables of a document so far, and the parts of the header that is in force. -/
structure Assembly where
  header : List String
  fields : Fields

/-- Carry out a statement. -/
def Assembly.add (rules : Rules) (a : Assembly) : Statement → Option Assembly
  | .table key => (a.fields.within key.path (Fields.define key.last)).map (⟨key.parts, ·⟩)
  | .item key => (a.fields.within key.path (Fields.append key.last)).map (⟨key.parts, ·⟩)
  | .assignment key value =>
    (a.fields.within a.header (Fields.assign rules key.path key.last value)).map (⟨a.header, ·⟩)

/-- The text after the mark that may open a file. -/
def skipMark : List Char → List Char
  | '\ufeff' :: rest => rest
  | rest => rest

/-- The fields of the table that a document denotes. -/
def parse? (rules : Rules) (text : String) : Option (List (String × Datum)) := do
  let chars := skipMark text.toList
  let statements ← statements? rules (chars.length + 1) chars
  let assembly ← statements.foldlM (Assembly.add rules) ⟨[], []⟩
  return Fields.data assembly.fields

end BrokerAdmin.Toml
