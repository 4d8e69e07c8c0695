import BrokerAdmin.Filter.Token
import BrokerAdmin.Subscription.Selector
import Mathlib.Tactic.Tauto

/-!
# Classes of characters

Selectors and filters cut a text by different classes of characters. The facts here keep these classes
apart or together: blank characters belong to no word, digits to every word, and an identifier goes on
with the characters of words and with dots.
-/

namespace BrokerAdmin.Text

/-- A code point lies in at most one of two tables whose ranges do not meet. -/
theorem inRanges_eq_false_of_disjoint {ranges others : List (Nat × Nat)}
    (h : ∀ range ∈ ranges, ∀ other ∈ others, range.2 < other.1 ∨ other.2 < range.1) {code : Nat}
    (hcode : inRanges ranges code = true) : inRanges others code = false := by
  rw [Bool.eq_false_iff]
  intro hother
  obtain ⟨range, hrange, hlow, hhigh⟩ := inRanges_iff.mp hcode
  obtain ⟨other, hmem, hlow', hhigh'⟩ := inRanges_iff.mp hother
  have := h range hrange other hmem
  omega

/-- The letters of ASCII by their code points. -/
theorem isAlpha_iff (c : Char) :
    c.isAlpha = true ↔ (65 ≤ c.toNat ∧ c.toNat ≤ 90) ∨ (97 ≤ c.toNat ∧ c.toNat ≤ 122) := by
  delta Char.isAlpha Char.isUpper Char.isLower
  simp [UInt32.le_iff_toNat_le, ← Char.toNat_val]

/-- The digits of ASCII by their code points. -/
theorem isDigit_iff (c : Char) : c.isDigit = true ↔ 48 ≤ c.toNat ∧ c.toNat ≤ 57 := by
  simp [Char.isDigit, UInt32.le_iff_toNat_le, ← Char.toNat_val]

/-- The code points of blank characters among those of ASCII. -/
theorem toNat_of_isBlank {c : Char} (hc : isBlank c = true) : c.toNat ≤ 32 ∨ 128 ≤ c.toNat := by
  obtain ⟨range, hrange, hlow, hhigh⟩ := inRanges_iff.mp hc
  simp only [blankRanges, List.mem_cons, List.not_mem_nil, or_false] at hrange
  rcases hrange with rfl | rfl | rfl | rfl | rfl | rfl | rfl | rfl | rfl | rfl <;> omega

/-- A blank character is neither a letter nor a number. -/
theorem isLetterOrNumber_of_isBlank {c : Char} (hc : isBlank c = true) :
    isLetterOrNumber c = false := by
  have hcode := toNat_of_isBlank hc
  unfold isLetterOrNumber isLetter isNumber
  split
  next hascii =>
    rw [Bool.or_eq_false_iff, Bool.eq_false_iff, Bool.eq_false_iff, Ne, Ne, isAlpha_iff, isDigit_iff]
    omega
  next =>
    rw [Bool.or_eq_false_iff]
    exact ⟨inRanges_eq_false_of_disjoint (by decide +kernel) hc,
      inRanges_eq_false_of_disjoint (by decide +kernel) hc⟩

/-- The digits of ASCII are numbers. -/
theorem isLetterOrNumber_of_isDigit {c : Char} (hc : c.isDigit = true) :
    isLetterOrNumber c = true := by
  have hcode := (isDigit_iff c).mp hc
  have hascii : c.toNat < 0x80 := by omega
  simp [isLetterOrNumber, isNumber, hascii, hc]

end BrokerAdmin.Text

namespace BrokerAdmin.Selector

/-- No word holds a blank character. -/
theorem isWordChar_of_isBlank {c : Char} (hc : Text.isBlank c = true) : isWordChar c = false := by
  have hcode := Text.toNat_of_isBlank hc
  have hunderscore : c ≠ '_' := fun h => by subst h; revert hc; decide
  have hdollar : c ≠ '$' := fun h => by subst h; revert hc; decide
  simp [isWordChar, Text.isLetterOrNumber_of_isBlank hc, hunderscore, hdollar]

/-- What belongs to a word is not blank. -/
theorem isBlank_of_isWordChar {c : Char} (hc : isWordChar c = true) : Text.isBlank c = false := by
  rw [Bool.eq_false_iff]
  intro hblank
  rw [isWordChar_of_isBlank hblank] at hc
  contradiction

/-- Digits belong to words. -/
theorem isWordChar_of_isDigit {c : Char} (hc : c.isDigit = true) : isWordChar c = true := by
  simp [isWordChar, Text.isLetterOrNumber_of_isDigit hc]

/-- No identifier begins with a digit. -/
theorem startsWord_of_isDigit {c : Char} (hc : c.isDigit = true) : Filter.startsWord c = false := by
  have hcode := (Text.isDigit_iff c).mp hc
  have hascii : c.toNat < 0x80 := by omega
  have halpha : c.isAlpha = false := by
    rw [Bool.eq_false_iff, Ne, Text.isAlpha_iff]
    omega
  have hunderscore : c ≠ '_' := fun h => by subst h; revert hc; decide
  have hdollar : c ≠ '$' := fun h => by subst h; revert hc; decide
  simp [Filter.startsWord, Text.isLetter, hascii, halpha, hunderscore, hdollar]

/-- An identifier goes on with the characters of words and with dots. -/
theorem continuesWord_eq (c : Char) : Filter.continuesWord c = (isWordChar c || c == '.') := rfl

/-- An identifier begins with a character that words are made of. -/
theorem isWordChar_of_startsWord {c : Char} (hc : Filter.startsWord c = true) :
    isWordChar c = true := by
  simp only [Filter.startsWord, Bool.or_eq_true] at hc
  simp only [isWordChar, Text.isLetterOrNumber, Bool.or_eq_true]
  tauto

end BrokerAdmin.Selector
