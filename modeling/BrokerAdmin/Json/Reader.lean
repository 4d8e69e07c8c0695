import BrokerAdmin.Binary64.Reading
import BrokerAdmin.Document.Value
import BrokerAdmin.Text.Hexadecimal
import BrokerAdmin.Text.Numeral

/-!
# Reading JSON

JSON text as a value, and nothing where the text is malformed. Whole numbers are read exactly while
they fit 64 bits. Every other number is read in two steps: as many leading digits as fit 64 bits are
kept and rounded, and the result is scaled by a power of ten with one product or quotient, or with
several when the exponent lies beyond 308. Fields are kept in their order, repetitions included.

A reader that ignores some fields passes over their values: the form of such a value has to be right,
but its numbers may be of any size and its escapes need not denote characters.
-/

namespace BrokerAdmin.Json

/-- The text after the white space of JSON. -/
def skipSpace : List Char → List Char
  | ' ' :: rest | '\t' :: rest | '\n' :: rest | '\r' :: rest => skipSpace rest
  | rest => rest

/-- The character that one unit, or a leading and a trailing unit, stand for. -/
def codePoint? (chars : List Char) : Option (Char × List Char) := do
  let (unit, rest) ← Text.hexDigits? 4 chars
  if 0xD800 ≤ unit ∧ unit < 0xDC00 then
    match rest with
    | '\\' :: 'u' :: rest => do
      let (trail, rest) ← Text.hexDigits? 4 rest
      if 0xDC00 ≤ trail ∧ trail < 0xE000 then
        some (Char.ofNat (0x10000 + (unit - 0xD800) * 0x400 + (trail - 0xDC00)), rest)
      else none
    | _ => none
  else if 0xDC00 ≤ unit ∧ unit < 0xE000 then none
  else some (Char.ofNat unit, rest)

/-- The character after a backslash. In a text that is passed over a unit stands alone, whatever it is. -/
def unescape? (passing : Bool) : List Char → Option (Char × List Char)
  | '"' :: rest => some ('"', rest)
  | '\\' :: rest => some ('\\', rest)
  | '/' :: rest => some ('/', rest)
  | 'b' :: rest => some ('\x08', rest)
  | 'f' :: rest => some ('\x0c', rest)
  | 'n' :: rest => some ('\n', rest)
  | 'r' :: rest => some ('\r', rest)
  | 't' :: rest => some ('\t', rest)
  | 'u' :: rest =>
    if passing then (Text.hexDigits? 4 rest).map fun (unit, rest) => (Char.ofNat unit, rest)
    else codePoint? rest
  | _ => none

/-- The characters of a string up to its closing quote, with what follows it. -/
def stringBody (passing : Bool) : Nat → List Char → List Char → Option (String × List Char)
  | 0, _, _ => none
  | fuel + 1, sofar, chars =>
    match chars with
    | '"' :: rest => some (String.ofList sofar.reverse, rest)
    | '\\' :: rest => do
      let (c, rest) ← unescape? passing rest
      stringBody passing fuel (c :: sofar) rest
    | c :: rest => if c.toNat < 0x20 then none else stringBody passing fuel (c :: sofar) rest
    | [] => none

/-- A string after its opening quote. -/
def string? (passing : Bool) (chars : List Char) : Option (String × List Char) :=
  stringBody passing (chars.length + 1) [] chars

/-- The leading digits that fit 64 bits, and how many digits are left over. -/
def significand (sofar : Nat) : List Char → Nat × Nat
  | [] => (sofar, 0)
  | c :: rest =>
    let next := 10 * sofar + (c.toNat - '0'.toNat)
    if next < 2 ^ 64 then significand next rest else (sofar, rest.length + 1)

/-- A significand scaled by a power of ten, rounded after each step; nothing where it overflows. -/
def scaled? : Nat → Binary64 → Int → Option Binary64
  | 0, _, _ => none
  | fuel + 1, x, exponent =>
    if exponent.natAbs ≤ 308 then
      let power := Binary64.ofInt (10 ^ exponent.natAbs)
      if 0 ≤ exponent then
        let product := x.mul power
        if product.isFinite then some product else none
      else some (x.div power)
    else if x.same (Binary64.ofInt 0) then some x
    else if 0 ≤ exponent then none
    else scaled? fuel (x.div (Binary64.ofInt (10 ^ 308))) (exponent + 308)

/-- A number with a fraction or an exponent, or too long for a whole one. -/
def float? (negative : Bool) (whole fraction : List Char) (exponent : Int) : Option Value :=
  let (kept, dropped) := significand 0 whole
  let (kept, unread) := significand kept fraction
  let place : Int := exponent + dropped - (fraction.length - unread : Nat)
  (scaled? (place.natAbs / 308 + 2) (Binary64.ofInt kept) place).map fun x =>
    .float (if negative then x.neg else x)

/-- The exponent of a number, if one is written. -/
def exponentPart? : List Char → Option (Option Int × List Char)
  | 'e' :: rest | 'E' :: rest =>
    let (negative, rest) := Binary64.splitSign rest
    let (digits, rest) := rest.span Char.isDigit
    if digits.isEmpty then none
    else
      let size : Int := Text.digitsValue 0 digits
      some (some (if negative then -size else size), rest)
  | rest => some (none, rest)

/-- The fraction of a number, if one is written; it has at least one digit. -/
def fractionPart? : List Char → Option (List Char × List Char)
  | '.' :: rest =>
    let (digits, rest) := rest.span Char.isDigit
    if digits.isEmpty then none else some (digits, rest)
  | rest => some ([], rest)

/-- The value of a whole number, exact in 64 bits; the negative zero has no whole form. -/
def whole? (negative : Bool) (digits : List Char) : Option Value :=
  let size := Text.digitsValue 0 digits
  if negative then
    if 0 < size ∧ size ≤ 2 ^ 63 then some (.int (-(size : Int))) else float? true digits [] 0
  else if size < 2 ^ 64 then some (.int size) else float? false digits [] 0

/-- A number after its sign. No digit follows a leading zero. A number that is passed over has no value. -/
def number? (passing negative : Bool) (chars : List Char) : Option (Value × List Char) := do
  let (whole, rest) := chars.span Char.isDigit
  if whole.isEmpty || (whole.length != 1 && whole.head? == some '0') then none
  else
    let (fraction, rest) ← fractionPart? rest
    let (exponent, rest) ← exponentPart? rest
    if passing then return (.null, rest)
    match fraction, exponent with
    | [], none => (whole? negative whole).map fun value => (value, rest)
    | _, _ => (float? negative whole fraction (exponent.getD 0)).map fun value => (value, rest)

/-- A word that stands for a value. -/
def word? (word : String) (value : Value) (chars : List Char) : Option (Value × List Char) :=
  if word.toList.isPrefixOf chars then some (value, chars.drop word.length) else none

mutual

/-- A value at the start of a text, with what follows it. -/
def value? (ignored : String → Bool) (passing : Bool) : Nat → List Char → Option (Value × List Char)
  | 0, _ => none
  | fuel + 1, chars =>
    match skipSpace chars with
    | '\x7b' :: rest =>
      match skipSpace rest with
      | '\x7d' :: rest => some (.table [], rest)
      | rest => (fields? ignored passing fuel rest).map fun (fields, rest) => (.table fields, rest)
    | '[' :: rest =>
      match skipSpace rest with
      | ']' :: rest => some (.list [], rest)
      | rest => (items? ignored passing fuel rest).map fun (items, rest) => (.list items, rest)
    | '"' :: rest => (string? passing rest).map fun (s, rest) => (.text s, rest)
    | '-' :: rest => number? passing true rest
    | 't' :: rest => word? "true" (.bool true) ('t' :: rest)
    | 'f' :: rest => word? "false" (.bool false) ('f' :: rest)
    | 'n' :: rest => word? "null" .null ('n' :: rest)
    | rest => number? passing false rest

/-- The items of a list after its opening bracket, at least one, up to the closing bracket. -/
def items? (ignored : String → Bool) (passing : Bool) :
    Nat → List Char → Option (List Value × List Char)
  | 0, _ => none
  | fuel + 1, chars => do
    let (item, rest) ← value? ignored passing fuel chars
    match skipSpace rest with
    | ']' :: rest => some ([item], rest)
    | ',' :: rest => (items? ignored passing fuel rest).map fun (items, rest) => (item :: items, rest)
    | _ => none

/-- The fields of a table after its opening brace, at least one, up to the closing brace. -/
def fields? (ignored : String → Bool) (passing : Bool) :
    Nat → List Char → Option (List (String × Value) × List Char)
  | 0, _ => none
  | fuel + 1, chars => do
    match skipSpace chars with
    | '"' :: rest =>
      let (name, rest) ← string? passing rest
      match skipSpace rest with
      | ':' :: rest =>
        let (value, rest) ← value? ignored (passing || ignored name) fuel rest
        match skipSpace rest with
        | '\x7d' :: rest => some ([(name, value)], rest)
        | ',' :: rest =>
          (fields? ignored passing fuel rest).map fun (fields, rest) =>
            ((name, value) :: fields, rest)
        | _ => none
      | _ => none
    | _ => none

end

/-- The value that a text denotes as a whole, passing over the fields that are ignored. -/
def parseIgnoring? (ignored : String → Bool) (text : String) : Option Value :=
  let chars := text.toList
  match value? ignored false (2 * chars.length + 2) chars with
  | some (value, rest) => if (skipSpace rest).isEmpty then some value else none
  | none => none

/-- The value that a text denotes as a whole. -/
def parse? (text : String) : Option Value :=
  parseIgnoring? (fun _ => false) text

end BrokerAdmin.Json
