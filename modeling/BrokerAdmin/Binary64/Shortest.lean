import BrokerAdmin.Binary64.Basic

/-!
# The fewest digits that read back

A finite number stands for the reals that round to it: an interval whose ends belong to it exactly
when the mantissa is even. Of the decimals in that interval the one with the fewest digits is chosen,
of two such the nearer one, and a tie between them is settled by the layout that writes it. Whether a
decimal reads back is decided in whole numbers.
-/

namespace BrokerAdmin.Binary64

/-- A decimal `digits * 10 ^ exponent`. -/
structure Decimal where
  digits : Nat
  exponent : Int
  deriving DecidableEq

/-- Which of two equally near decimals of the same length is written. -/
inductive Tie where
  | toEven
  | upward

/-- The order of `a * 10 ^ i` and `n * 2 ^ j`. -/
def compareScaled (a : Nat) (i : Int) (n : Nat) (j : Int) : Ordering :=
  compare (a * 10 ^ i.toNat * 2 ^ (-j).toNat) (n * 2 ^ j.toNat * 10 ^ (-i).toNat)

/-- Whether a decimal rounds to `mantissa * 2 ^ exponent`. Below a power of two the next smaller
number is only half as far away. -/
def readsBack (mantissa : Nat) (exponent : Int) (d : Decimal) : Bool :=
  let narrow := mantissa == 2 ^ 52 && decide (leastExponent < exponent)
  let low := compareScaled d.digits d.exponent (4 * mantissa - if narrow then 1 else 2) (exponent - 2)
  let high := compareScaled d.digits d.exponent (4 * mantissa + 2) (exponent - 2)
  let ends := mantissa % 2 == 0
  (low == .gt || (ends && low == .eq)) && (high == .lt || (ends && high == .eq))

/-- The greatest multiple of `10 ^ place` that is at most `mantissa * 2 ^ exponent`, as a count. -/
def floorAt (mantissa : Nat) (exponent place : Int) : Nat :=
  mantissa * 2 ^ exponent.toNat * 10 ^ (-place).toNat / (2 ^ (-exponent).toNat * 10 ^ place.toNat)

/-- How twice the number compares with the sum of the two neighbours on the grid `10 ^ place`. -/
def compareMiddle (mantissa : Nat) (exponent : Int) (below : Nat) (place : Int) : Ordering :=
  compareScaled (2 * below + 1) place (2 * mantissa) exponent

/-- The decimal on the grid `10 ^ place` that reads back and is nearest, if there is one. -/
def onGrid? (tie : Tie) (mantissa : Nat) (exponent place : Int) : Option Decimal :=
  let below := floorAt mantissa exponent place
  let low : Decimal := ⟨below, place⟩
  let high : Decimal := ⟨below + 1, place⟩
  match readsBack mantissa exponent low, readsBack mantissa exponent high with
  | true, false => some low
  | false, true => some high
  | false, false => none
  | true, true =>
    match compareMiddle mantissa exponent below place, tie with
    | .gt, _ => some low
    | .lt, _ => some high
    | .eq, .upward => some high
    | .eq, .toEven => some (if below % 2 = 0 then low else high)

/-- The least `k` at or above the given one for which the number is below `10 ^ k`. -/
def scaleFrom (mantissa : Nat) (exponent start : Int) : Nat → Int
  | 0 => start
  | steps + 1 =>
    if compareScaled 1 start mantissa exponent == .gt then start
    else scaleFrom mantissa exponent (start + 1) steps

/-- The least `k` for which a positive number is below `10 ^ k`, from an estimate by logarithms that
is too low by at most two. -/
def scale (mantissa : Nat) (exponent : Int) : Int :=
  let bits : Int := mantissa.log2 + exponent
  scaleFrom mantissa exponent (bits * 30103 / 100000 - 1) 4

/-- Digits without the zeros at their end. -/
def stripZeros (digits : Nat) (exponent : Int) : Nat → Decimal
  | 0 => ⟨digits, exponent⟩
  | steps + 1 =>
    if digits % 10 = 0 then stripZeros (digits / 10) (exponent + 1) steps else ⟨digits, exponent⟩

/-- The shortest decimal that reads back as a positive number; the exact value where none of up to
seventeen digits does. -/
def shortest (tie : Tie) (mantissa : Nat) (exponent : Int) : Decimal :=
  let top := scale mantissa exponent
  let grids := (List.range 17).map fun n => top - (n + 1 : Nat)
  match grids.findSome? (onGrid? tie mantissa exponent) with
  | some d => stripZeros d.digits d.exponent 17
  | none => ⟨mantissa * 2 ^ exponent.toNat * 5 ^ (-exponent).toNat, min exponent 0⟩

end BrokerAdmin.Binary64
