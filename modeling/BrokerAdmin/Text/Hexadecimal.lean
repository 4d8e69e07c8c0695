/-!
# Hexadecimal numerals

Hexadecimal digits in either case, and the value of a run of them.
-/

namespace BrokerAdmin.Text

/-- The value of a hexadecimal digit. -/
def hexDigit? (c : Char) : Option Nat :=
  if c.isDigit then some (c.toNat - '0'.toNat)
  else if 'a' ≤ c ∧ c ≤ 'f' then some (c.toNat - 'a'.toNat + 10)
  else if 'A' ≤ c ∧ c ≤ 'F' then some (c.toNat - 'A'.toNat + 10)
  else none

/-- The value of exactly `count` hexadecimal digits, and what follows them. -/
def hexDigits? (count : Nat) (chars : List Char) : Option (Nat × List Char) :=
  if chars.length < count then none
  else
    ((chars.take count).mapM hexDigit?).map fun digits =>
      (digits.foldl (fun value digit => 16 * value + digit) 0, chars.drop count)

end BrokerAdmin.Text
