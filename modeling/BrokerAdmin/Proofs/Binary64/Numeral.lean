import BrokerAdmin.Binary64.Reading
import BrokerAdmin.Proofs.Filter.Scanning
import Mathlib.Data.List.TakeDrop

/-!
# Plain decimal numerals

The numerals without an exponent and without a plus sign: an optional minus sign, at least one digit,
and an optional point with the digits after it. Each of them is read as the number nearest to the value
that its digits have.
-/

namespace BrokerAdmin.Binary64

/-- A plain decimal numeral. -/
structure Numeral where
  negative : Bool
  whole : List Char
  /-- The digits after the point, if there is one. -/
  fraction : Option (List Char)
  whole_ne_nil : whole ≠ []
  isDigit_of_mem_whole : ∀ c ∈ whole, c.isDigit = true
  isDigit_of_mem_fraction : ∀ digits ∈ fraction, ∀ c ∈ digits, c.isDigit = true

namespace Numeral

/-- The point and the digits after it. -/
def pointed : Option (List Char) → List Char
  | none => []
  | some digits => '.' :: digits

/-- A numeral without its sign. -/
def unsigned (n : Numeral) : List Char :=
  n.whole ++ pointed n.fraction

/-- A numeral as it is written. -/
def chars (n : Numeral) : List Char :=
  if n.negative then '-' :: n.unsigned else n.unsigned

/-- The number that a numeral denotes: all its digits as a whole number, over a power of ten for those
after the point. -/
def value (n : Numeral) : Binary64 :=
  ofDecimal n.negative (Text.digitsValue 0 (n.whole ++ n.fraction.getD []))
    (-((n.fraction.getD []).length : Int))

/-- The digits in front end where a point or nothing follows. -/
theorem head?_pointed_any (fraction : Option (List Char)) :
    (pointed fraction).head?.any Char.isDigit = false := by
  cases fraction <;> rfl

/-- An unsigned numeral begins with a digit. -/
theorem exists_unsigned_eq_cons (n : Numeral) :
    ∃ first rest, n.unsigned = first :: rest ∧ first.isDigit = true := by
  cases hwhole : n.whole with
  | nil => exact absurd hwhole n.whole_ne_nil
  | cons first rest =>
    have hfirst := n.isDigit_of_mem_whole first (by simp [hwhole])
    exact ⟨first, rest ++ pointed n.fraction, by simp [unsigned, hwhole], hfirst⟩

/-- The digits on both sides of the point are read. -/
theorem ofDigits?_unsigned (n : Numeral) : ofDigits? n.negative n.unsigned = some n.value := by
  have hspan : n.unsigned.span Char.isDigit = (n.whole, pointed n.fraction) := by
    rw [List.span_eq_takeWhile_dropWhile, unsigned,
      Filter.takeWhile_append_of_stop n.isDigit_of_mem_whole (head?_pointed_any _),
      Filter.dropWhile_append_of_stop n.isDigit_of_mem_whole (head?_pointed_any _)]
  have hfraction : splitFraction (pointed n.fraction) = (n.fraction.getD [], []) := by
    cases hdigits : n.fraction with
    | none => rfl
    | some digits =>
      have hall := n.isDigit_of_mem_fraction digits hdigits
      have htake : digits.takeWhile Char.isDigit = digits := List.takeWhile_eq_self_iff.mpr hall
      have hdrop : digits.dropWhile Char.isDigit = [] := List.dropWhile_eq_nil_iff.mpr hall
      simp only [pointed, splitFraction, List.span_eq_takeWhile_dropWhile, htake, hdrop,
        Option.getD_some]
  have hwhole : n.whole.isEmpty = false := by simpa using n.whole_ne_nil
  simp only [ofDigits?, hspan, hfraction, hwhole, exponent?, value, Bool.false_and,
    Bool.false_eq_true, if_false, Option.map_some,
    Int.zero_sub]

end Numeral

/-- A digit has no cases. -/
theorem toLower_of_isDigit {c : Char} (hc : c.isDigit = true) : c.toLower = c := by
  have hcode := (Text.isDigit_iff c).mp hc
  have hupper : ¬ (c.val ≥ 'A'.val ∧ c.val ≤ 'Z'.val) := by
    simp only [ge_iff_le, UInt32.le_iff_toNat_le, Char.toNat_val]
    have hA : 'A'.toNat = 65 := rfl
    omega
  exact dif_neg hupper

/-- What begins with a digit is none of the names that numbers have. -/
theorem ofText?_of_isDigit {negative : Bool} {chars rest : List Char} {first : Char}
    (hsign : splitSign chars = (negative, first :: rest)) (hfirst : first.isDigit = true) :
    ofText? chars = ofDigits? negative (first :: rest) := by
  have hname : ∀ name : String, name.toList.head?.any Char.isDigit = false →
      String.ofList ((first :: rest).map Char.toLower) ≠ name := by
    rintro name hname rfl
    rw [String.toList_ofList, List.map_cons, List.head?_cons, Option.any_some,
      toLower_of_isDigit hfirst, hfirst] at hname
    contradiction
  simp only [ofText?, hsign]
  split
  next heq => exact absurd heq (hname "inf" rfl)
  next heq => exact absurd heq (hname "infinity" rfl)
  next heq => exact absurd heq (hname "nan" rfl)
  next => rfl

/-- A plain decimal numeral is read as the number it denotes. -/
theorem ofText?_chars (n : Numeral) : ofText? n.chars = some n.value := by
  obtain ⟨first, rest, hunsigned, hfirst⟩ := n.exists_unsigned_eq_cons
  have hminus : first ≠ '-' := fun h => by subst h; revert hfirst; decide
  have hplus : first ≠ '+' := fun h => by subst h; revert hfirst; decide
  have hsign : splitSign n.chars = (n.negative, first :: rest) := by
    cases hnegative : n.negative with
    | true => simp [Numeral.chars, hnegative, hunsigned, splitSign]
    | false => simp [Numeral.chars, hnegative, hunsigned, splitSign, hminus, hplus]
  rw [ofText?_of_isDigit hsign hfirst, ← hunsigned]
  exact n.ofDigits?_unsigned

end BrokerAdmin.Binary64
