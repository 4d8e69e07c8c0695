import BrokerAdmin.Binary64.Reading
import BrokerAdmin.Text.Hexadecimal
import BrokerAdmin.Text.Numeral
import BrokerAdmin.Toml.Datum

/-!
# Numbers in TOML

A whole number is written in decimal with an optional sign, or after `0x`, `0o` or `0b` in another base,
and must fit 64 bits. A number with a fraction or an exponent is one in binary floating point, and so are
`inf` and `nan`. Underscores separate digits.
-/

namespace BrokerAdmin.Toml

/-- The further digits of a numeral, each possibly after an underscore, with what follows them; a final
underscore is malformed. -/
def moreDigits? (isDigit : Char → Bool) : List Char → Option (List Char × List Char)
  | '_' :: c :: rest =>
    if isDigit c then (moreDigits? isDigit rest).map fun (digits, rest) => (c :: digits, rest) else none
  | c :: rest =>
    if isDigit c then (moreDigits? isDigit rest).map fun (digits, rest) => (c :: digits, rest)
    else if c == '_' then none
    else some ([], c :: rest)
  | [] => some ([], [])

/-- At least one digit. -/
def digits? (isDigit : Char → Bool) : List Char → Option (List Char × List Char)
  | c :: rest =>
    if isDigit c then (moreDigits? isDigit rest).map fun (digits, rest) => (c :: digits, rest) else none
  | [] => none

/-- The digits of a decimal whole number: a zero alone, or digits that begin with no zero. -/
def wholeDigits? : List Char → Option (List Char × List Char)
  | '0' :: rest => some (['0'], rest)
  | chars => digits? Char.isDigit chars

/-- The digits after a point, if there is one. -/
def fraction? : List Char → Option (List Char × List Char)
  | '.' :: rest => digits? Char.isDigit rest
  | rest => some ([], rest)

/-- The exponent, if there is one. -/
def exponent? : List Char → Option (Option Int × List Char)
  | 'e' :: rest | 'E' :: rest => do
    let (negative, rest) := Binary64.splitSign rest
    let (digits, rest) ← digits? Char.isDigit rest
    let size : Int := Text.digitsValue 0 digits
    some (some (if negative then -size else size), rest)
  | rest => some (none, rest)

/-- A whole number that fits 64 bits. -/
def int64? (n : Int) : Option Datum :=
  if -2 ^ 63 ≤ n ∧ n < 2 ^ 63 then some (.int n) else none

/-- A number in binary floating point. One that is too large is malformed, though below zero the rules may
take it for the negative infinity. -/
def float? (rules : Rules) (negative : Bool) (whole fraction : List Char) (exponent : Int) : Option Datum :=
  let x := Binary64.ofDecimal negative (Text.digitsValue 0 (whole ++ fraction)) (exponent - fraction.length)
  if x = .infinite false ∨ (x = .infinite true ∧ rules.boundsNegative = true) then none else some (.float x)

/-- A decimal number after its sign. -/
def decimal? (rules : Rules) (negative : Bool) (chars : List Char) : Option (Datum × List Char) := do
  let (whole, rest) ← wholeDigits? chars
  let (fraction, rest) ← fraction? rest
  let (exponent, rest) ← exponent? rest
  if fraction.isEmpty && exponent.isNone then
    let size : Int := Text.digitsValue 0 whole
    (int64? (if negative then -size else size)).map fun value => (value, rest)
  else (float? rules negative whole fraction (exponent.getD 0)).map fun value => (value, rest)

/-- Whether a character is a digit in a base up to sixteen. -/
def isDigitIn (base : Nat) (c : Char) : Bool :=
  (Text.hexDigit? c).any fun digit => decide (digit < base)

/-- A whole number in another base, after the mark of the base. -/
def inBase? (base : Nat) (chars : List Char) : Option (Datum × List Char) := do
  let (digits, rest) ← digits? (isDigitIn base) chars
  let n := digits.foldl (fun value c => base * value + (Text.hexDigit? c).getD 0) 0
  (int64? n).map fun value => (value, rest)

/-- A number after a sign, or without one. -/
def unsigned? (rules : Rules) (negative : Bool) : List Char → Option (Datum × List Char)
  | 'i' :: 'n' :: 'f' :: rest => some (.float (.infinite negative), rest)
  | 'n' :: 'a' :: 'n' :: rest => some (.float .nan, rest)
  | chars => decimal? rules negative chars

/-- A number. -/
def number? (rules : Rules) : List Char → Option (Datum × List Char)
  | '+' :: rest => unsigned? rules false rest
  | '-' :: rest => unsigned? rules true rest
  | '0' :: 'x' :: rest => inBase? 16 rest
  | '0' :: 'o' :: rest => inBase? 8 rest
  | '0' :: 'b' :: rest => inBase? 2 rest
  | chars => unsigned? rules false chars

end BrokerAdmin.Toml
