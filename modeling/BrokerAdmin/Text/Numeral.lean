/-!
# Decimal numerals

Whole numbers as decimal digits, with a minus sign in front of negative ones, and the value of a run of
digits.
-/

namespace BrokerAdmin.Text

/-- The value of a string of decimal digits, continuing from the value read so far. -/
def digitsValue (sofar : Nat) (digits : List Char) : Nat :=
  digits.foldl (fun value c => 10 * value + (c.toNat - '0'.toNat)) sofar

/-- The digits of a whole number, after its sign if it is negative. -/
def numeral (n : Int) : List Char :=
  if n < 0 then '-' :: Nat.toDigits 10 n.natAbs else Nat.toDigits 10 n.natAbs

/-- A whole number as a text. -/
def ofInt (n : Int) : String :=
  String.ofList (numeral n)

/-- A natural number as a text. -/
def ofNat (n : Nat) : String :=
  String.ofList (Nat.toDigits 10 n)

end BrokerAdmin.Text
