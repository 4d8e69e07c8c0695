import BrokerAdmin.Proofs.Binary64.Integers
import BrokerAdmin.Proofs.Filter.Writing

/-!
# Comparisons with a property

A comparison is written as a name, a sign and a literal with a space between them. A name that is no
header's stands for the property of that name: a text is found when it is the property, character by
character, and an integer is compared with a property that is one.

Integers are compared in binary floating point. Different ones that become the same number there count as
equal; all others, among them those up to `2 ^ 53`, are compared as they are, since rounding keeps the order.
-/

namespace BrokerAdmin.Filter

open BrokerAdmin.Binary64 (nearestInt)

/-! ### The text of a comparison -/

/-- The text of a comparison. -/
def comparisonText (name : String) (op : Comparison) (literal : List Char) : String :=
  name ++ " " ++ String.ofList op.sign ++ " " ++ String.ofList literal

example : comparisonText "size" .ge (Text.numeral (-12)) = "size >= -12" := by decide

/-- The text of a comparison is read as that comparison. -/
theorem parse_comparisonText (name : Identifier) (op : Comparison) (literal : LiteralSource) :
    parse (comparisonText name.name op (Lexeme.literal literal).chars) =
      .ok (.compare name.name op literal.literal) := by
  let source : Source := .compare name op literal
  have htext : comparisonText name.name op (Lexeme.literal literal).chars =
      source.printSpaced .composite fun _ => Gap.space := by
    rw [← String.toList_inj]
    simp [comparisonText, source, Source.printSpaced, Source.lexemes, spaced, Lexeme.identifier,
      Lexeme.comparison, Gap.space]
  rw [htext]
  exact (source.printSpaced_denotes .composite _).parse_eq (Nat.zero_le _)

/-- A comparison with an integer in decimal is one with the number that the integer becomes. -/
theorem parse_comparisonText_numeral (name : Identifier) (op : Comparison) (b : Int) :
    parse (comparisonText name.name op (Text.numeral b)) =
      .ok (.compare name.name op (.number (.ofInt b))) := by
  let literal : LiteralSource := .number (Binary64.Numeral.ofInt b)
  have hchars : (Lexeme.literal literal).chars = Text.numeral b := Binary64.Numeral.chars_ofInt b
  have hliteral : literal.literal = .number (.ofInt b) :=
    congrArg Literal.number (Binary64.Numeral.value_ofInt b)
  rw [← hchars, ← hliteral]
  exact parse_comparisonText name op literal

/-! ### Properties -/

/-- A name that is no header's stands for the property of that name. -/
theorem read_of_not_mem_headerNames {name : String} (hname : name ∉ headerNames) (m : Message) :
    read m name = (m.properties.get? name).bind Literal.ofValue? := by
  simp only [headerNames, List.mem_cons, List.not_mem_nil, or_false, not_or] at hname
  unfold read
  split <;> simp_all

/-- A text is found when the property is that text. -/
theorem accepts_compare_text_iff {name : String} (hname : name ∉ headerNames) (text : String)
    (m : Message) :
    (Expr.compare name .eq (.text text)).accepts m = true ↔
      m.properties.get? name = some (.text text) := by
  rw [Expr.accepts, Expr.holds, read_of_not_mem_headerNames hname]
  cases hproperty : m.properties.get? name with
  | none => simp [Literal.satisfies]
  | some value => cases value <;> simp [Literal.ofValue?, Literal.satisfies, Comparison.ofEquality]

/-! ### Integers -/

/-- What a comparison says of two integers. -/
def Comparison.Holds : Comparison → Int → Int → Prop
  | eq, a, b => a = b
  | ne, a, b => a ≠ b
  | lt, a, b => a < b
  | le, a, b => a ≤ b
  | gt, a, b => a > b
  | ge, a, b => a ≥ b

/-- What a comparison says of two integers can be decided. -/
instance (op : Comparison) (a b : Int) : Decidable (op.Holds a b) :=
  match op with
  | .eq => inferInstanceAs (Decidable (a = b))
  | .ne => inferInstanceAs (Decidable (a ≠ b))
  | .lt => inferInstanceAs (Decidable (a < b))
  | .le => inferInstanceAs (Decidable (a ≤ b))
  | .gt => inferInstanceAs (Decidable (a > b))
  | .ge => inferInstanceAs (Decidable (a ≥ b))

/-- A comparison is told from the order of two integers. -/
theorem Comparison.ofOrder_compare_iff (op : Comparison) (a b : Int) :
    op.ofOrder (some (compare a b)) = true ↔ op.Holds a b := by
  rcases Int.lt_trichotomy a b with h | h | h
  · rw [compare_lt_iff_lt.mpr h]
    cases op <;> simp [ofOrder, Holds] <;> omega
  · rw [compare_eq_iff_eq.mpr h]
    cases op <;> simp [ofOrder, Holds] <;> omega
  · rw [compare_gt_iff_gt.mpr h]
    cases op <;> simp [ofOrder, Holds] <;> omega

/-- Rounding changes what a comparison says only of different integers that become the same. -/
theorem Comparison.holds_nearestInt_iff (op : Comparison) {a b : Int}
    (h : nearestInt a = nearestInt b → a = b) :
    op.Holds (nearestInt a) (nearestInt b) ↔ op.Holds a b := by
  rcases Int.lt_trichotomy a b with hab | hab | hab
  · have hmono : nearestInt a ≤ nearestInt b := Binary64.nearestInt_mono (Int.le_of_lt hab)
    have hless : nearestInt a < nearestInt b :=
      lt_of_le_of_ne hmono fun hequal => absurd (h hequal) (Int.ne_of_lt hab)
    cases op <;> simp only [Holds] <;> omega
  · subst hab
    cases op <;> simp only [Holds] <;> omega
  · have hmono : nearestInt b ≤ nearestInt a := Binary64.nearestInt_mono (Int.le_of_lt hab)
    have hless : nearestInt b < nearestInt a :=
      lt_of_le_of_ne hmono fun hequal => absurd (h hequal.symm) (Int.ne_of_gt hab)
    cases op <;> simp only [Holds] <;> omega

/-- An integer is compared with a property that is one as the nearest integers with 53 binary digits are. -/
theorem accepts_compare_int_iff {name : String} (hname : name ∉ headerNames) (op : Comparison) {a b : Int}
    (ha : a.natAbs ≤ 2 ^ 63) (hb : b.natAbs ≤ 2 ^ 63) {m : Message}
    (hm : m.properties.get? name = some (.int a)) :
    (Expr.compare name op (.number (.ofInt b))).accepts m = true ↔
      op.Holds (nearestInt a) (nearestInt b) := by
  rw [Expr.accepts, Expr.holds, read_of_not_mem_headerNames hname, hm]
  change op.ofOrder ((Binary64.ofInt a).compare? (Binary64.ofInt b)) = true ↔ _
  rw [Binary64.compare?_ofInt ha hb, Comparison.ofOrder_compare_iff]

/-- A property that is an integer of 64 bits is compared with such an integer, written in decimal, as the two
are in binary floating point: as the nearest integers with at most 53 binary digits in front of the zeros at
their end. This is how the integers themselves compare, unless they are different ones that become the
same; integers up to `2 ^ 53` always compare as they are. -/
theorem accepts_integer_comparison (name : Identifier) (hname : name.name ∉ headerNames) (op : Comparison)
    (a b : Int) (ha : -2 ^ 63 ≤ a ∧ a < 2 ^ 63) (hb : -2 ^ 63 ≤ b ∧ b < 2 ^ 63) :
    ∃ e, parse (comparisonText name.name op (Text.numeral b)) = .ok e ∧
      ∀ m : Message, m.properties.get? name.name = some (.int a) →
        (e.accepts m = true ↔ op.Holds (nearestInt a) (nearestInt b)) ∧
        ((nearestInt a = nearestInt b → a = b) → (e.accepts m = true ↔ op.Holds a b)) ∧
        (a.natAbs ≤ 2 ^ 53 → b.natAbs ≤ 2 ^ 53 → (e.accepts m = true ↔ op.Holds a b)) := by
  refine ⟨_, parse_comparisonText_numeral name op b, fun m hm => ?_⟩
  have hrounded := accepts_compare_int_iff hname op (by omega : a.natAbs ≤ 2 ^ 63)
    (by omega : b.natAbs ≤ 2 ^ 63) hm
  have hexact : (nearestInt a = nearestInt b → a = b) →
      ((Expr.compare name.name op (.number (.ofInt b))).accepts m = true ↔ op.Holds a b) :=
    fun hdistinct => hrounded.trans (op.holds_nearestInt_iff hdistinct)
  refine ⟨hrounded, hexact, fun hsmall hsmall' => hexact fun hequal => ?_⟩
  rwa [Binary64.nearestInt_eq_self (Binary64.isExact_of_le hsmall),
    Binary64.nearestInt_eq_self (Binary64.isExact_of_le hsmall')] at hequal

/-- The next integer to the least one is not below it, although the two become the same. -/
theorem accepts_integer_comparison_least :
    ∃ e, parse "size >= -9223372036854775808" = .ok e ∧
      e.accepts { Message.ofBody "" 0 with
        properties := Catalog.ofList [("size", .int (-9223372036854775807))] } = true := by
  let name : Identifier := ⟨"size", by decide, List.all_eq_true.mp (by decide), by decide⟩
  have htext : comparisonText name.name .ge (Text.numeral (-9223372036854775808)) =
      "size >= -9223372036854775808" := by decide +kernel
  obtain ⟨e, hparse, haccepts⟩ := accepts_integer_comparison name (by decide) .ge (-9223372036854775807)
    (-9223372036854775808) (by decide) (by decide)
  rw [htext] at hparse
  have hsame : Comparison.ge.Holds (nearestInt (-9223372036854775807))
      (nearestInt (-9223372036854775808)) := by decide +kernel
  exact ⟨e, hparse, ((haccepts _ (by rfl)).1).mpr hsame⟩

/-- A property is taken for equal to the next integer, which becomes the same number. -/
theorem accepts_different_integers :
    ∃ e, parse "size = 9007199254740993" = .ok e ∧
      e.accepts { Message.ofBody "" 0 with
        properties := Catalog.ofList [("size", .int 9007199254740992)] } = true ∧
      ¬ Comparison.eq.Holds 9007199254740992 9007199254740993 := by
  let name : Identifier := ⟨"size", by decide, List.all_eq_true.mp (by decide), by decide⟩
  have htext : comparisonText name.name .eq (Text.numeral 9007199254740993) =
      "size = 9007199254740993" := by decide +kernel
  have hparse := parse_comparisonText_numeral name .eq 9007199254740993
  rw [htext] at hparse
  have haccepts : ∀ m : Message, m.properties.get? name.name = some (.int 9007199254740992) →
      (Expr.compare name.name .eq (.number (.ofInt 9007199254740993))).accepts m = true := by
    intro m hm
    rw [accepts_compare_int_iff (by decide) .eq (by decide) (by decide) hm]
    decide +kernel
  exact ⟨_, hparse, haccepts _ (by rfl), by decide⟩

end BrokerAdmin.Filter
