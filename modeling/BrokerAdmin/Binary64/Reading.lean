import BrokerAdmin.Binary64.Basic
import BrokerAdmin.Text.Numeral

/-!
# Reading decimal numerals

A decimal numeral denotes a whole number times a power of ten and is read as the nearest binary
number. A numeral has an optional sign, digits with at most one point among or around them and an
optional exponent; `inf`, `infinity` and `nan` are read in either case.
-/

namespace BrokerAdmin.Binary64

/-- The number nearest to `± digits * 10 ^ exponent`. Sizes that are certainly beyond the largest or
below the smallest number are settled without computing the power. -/
def ofDecimal (negative : Bool) (digits : Nat) (exponent : Int) : Binary64 :=
  if digits = 0 then finite negative 0 leastExponent
  else if 400 < exponent then infinite negative
  else if (digits.log2 / 3 : Int) + 1 + exponent < -400 then finite negative 0 leastExponent
  else ofRatio negative (digits * 10 ^ exponent.toNat) (10 ^ (-exponent).toNat)

/-- A sign in front of a numeral, and what follows it. -/
def splitSign : List Char → Bool × List Char
  | '-' :: rest => (true, rest)
  | '+' :: rest => (false, rest)
  | rest => (false, rest)

/-- The exponent written after the digits: nothing, or `e` with a signed whole number. -/
def exponent? : List Char → Option Int
  | [] => some 0
  | e :: rest =>
    let (negative, digits) := splitSign rest
    if (e == 'e' || e == 'E') && !digits.isEmpty && digits.all Char.isDigit then
      let size : Int := Text.digitsValue 0 digits
      some (if negative then -size else size)
    else none

/-- The digits after a point, and what follows them. -/
def splitFraction : List Char → List Char × List Char
  | '.' :: rest => rest.span Char.isDigit
  | rest => ([], rest)

/-- An unsigned numeral with at least one digit. -/
def ofDigits? (negative : Bool) (chars : List Char) : Option Binary64 :=
  let (whole, rest) := chars.span Char.isDigit
  let (fraction, rest) := splitFraction rest
  if whole.isEmpty && fraction.isEmpty then none
  else (exponent? rest).map fun exponent =>
    ofDecimal negative (Text.digitsValue 0 (whole ++ fraction)) (exponent - fraction.length)

/-- The number that a text denotes as a whole, if it is a numeral. -/
def ofText? (chars : List Char) : Option Binary64 :=
  let (negative, rest) := splitSign chars
  match String.ofList (rest.map Char.toLower) with
  | "inf" | "infinity" => some (infinite negative)
  | "nan" => some nan
  | _ => ofDigits? negative rest

end BrokerAdmin.Binary64
