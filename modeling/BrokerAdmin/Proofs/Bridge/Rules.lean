import BrokerAdmin.Bridge.Error
import BrokerAdmin.Proofs.Bridge.RoutingName
import BrokerAdmin.Proofs.Outcome
import Mathlib.Algebra.Order.Ring.Int

/-!
# The rules of declared bridges

What a declared bridge must be to resolve is a list of rules, each with what is reported of a bridge that
breaks it. The rules speak of the declared bridge and the overrides only. A bridge resolves just when it keeps
all of them; otherwise the first that it breaks is reported. What it resolves to has the numbers that are
configured for it.

A check goes by rules when it succeeds only if all of them are kept and fails only with the first that is
broken. Checks that go by rules make a check that goes by the rules of both, and in this way the rules of
resolution are put together from those of its parts.
-/

namespace BrokerAdmin.Bridge

/-! ### Checks that go by rules -/

/-- A rule, and what is reported when it is broken. -/
structure Rule where
  holds : Prop
  violation : Violation

/-- What is reported of the first rule that is broken. -/
inductive FirstBroken : List Rule → Violation → Prop where
  | here {rule : Rule} {rest : List Rule} (hbroken : ¬ rule.holds) : FirstBroken (rule :: rest) rule.violation
  | later {rule : Rule} {rest : List Rule} {violation : Violation} (hkept : rule.holds)
    (hrest : FirstBroken rest violation) : FirstBroken (rule :: rest) violation

/-- A check goes by rules: what it accepts keeps all of them and is good, and what it refuses breaks the one
that is reported first. -/
inductive GoesBy {α : Type} (rules : List Rule) (good : α → Prop) : Except Violation α → Prop where
  | accepts {a : α} (hkept : ∀ rule ∈ rules, rule.holds) (hgood : good a) : GoesBy rules good (.ok a)
  | refuses {violation : Violation} (hfirst : FirstBroken rules violation) :
    GoesBy rules good (.error violation)

variable {α β : Type} {rules more : List Rule} {violation : Violation}

/-- Where a rule is broken, not all are kept. -/
theorem FirstBroken.not_forall (h : FirstBroken rules violation) : ¬ ∀ rule ∈ rules, rule.holds := by
  induction h with
  | here hbroken => exact fun hall => hbroken (hall _ List.mem_cons_self)
  | later _ _ ih => exact fun hall => ih (List.forall_mem_cons.mp hall).2

/-- One rule is the first that is broken. -/
theorem FirstBroken.unique (h : FirstBroken rules violation) {violation' : Violation}
    (h' : FirstBroken rules violation') : violation = violation' := by
  induction h with
  | here hbroken =>
    cases h' with
    | here => rfl
    | later hkept => exact absurd hkept hbroken
  | later hkept _ ih =>
    cases h' with
    | here hbroken => exact absurd hkept hbroken
    | later _ hrest => exact ih hrest

/-- Rules that come later do not matter where one is broken. -/
theorem FirstBroken.append (h : FirstBroken rules violation) (more : List Rule) :
    FirstBroken (rules ++ more) violation := by
  induction h with
  | here hbroken => exact .here hbroken
  | later hkept _ ih => exact .later hkept ih

/-- Rules that are kept do not matter where a later one is broken. -/
theorem FirstBroken.append_of_forall (hkept : ∀ rule ∈ rules, rule.holds)
    (h : FirstBroken more violation) : FirstBroken (rules ++ more) violation := by
  induction rules with
  | nil => exact h
  | cons rule rules ih =>
    obtain ⟨hrule, hrules⟩ := List.forall_mem_cons.mp hkept
    exact .later hrule (ih hrules)

section

variable {good : α → Prop} {check : Except Violation α}

/-- A check of one rule. -/
theorem GoesBy.single {holds test : Prop} [Decidable test] {a : α} (htest : test ↔ holds)
    (hgood : holds → good a) :
    GoesBy [⟨holds, violation⟩] good (if test then .ok a else .error violation) := by
  split
  next hholds =>
    rw [htest] at hholds
    exact .accepts (List.forall_mem_singleton.mpr hholds) (hgood hholds)
  next hbroken =>
    rw [htest] at hbroken
    exact .refuses (.here hbroken)

/-- A check that is followed by another goes by the rules of both. -/
theorem GoesBy.bind {good' : β → Prop} {next : α → Except Violation β} (h : GoesBy rules good check)
    (hnext : ∀ a, good a → GoesBy more good' (next a)) : GoesBy (rules ++ more) good' (check >>= next) := by
  cases h with
  | refuses hfirst => exact .refuses (hfirst.append more)
  | @accepts a hkept hgood =>
    have hnext' := hnext a hgood
    change GoesBy (rules ++ more) good' (next a)
    generalize next a = answer at hnext' ⊢
    cases hnext' with
    | accepts hmore hgood' => exact .accepts (List.forall_mem_append.mpr ⟨hkept, hmore⟩) hgood'
    | refuses hfirst => exact .refuses (.append_of_forall hkept hfirst)

/-- A check whose result is changed goes by the same rules. -/
theorem GoesBy.map {good' : β → Prop} {f : α → β} (h : GoesBy rules good check)
    (hf : ∀ a, good a → good' (f a)) : GoesBy rules good' (check.map f) := by
  cases h with
  | accepts hkept hgood => exact .accepts hkept (hf _ hgood)
  | refuses hfirst => exact .refuses hfirst

/-- A check accepts just when all rules are kept. -/
theorem GoesBy.exists_eq_ok_iff (h : GoesBy rules good check) :
    (∃ a, check = .ok a) ↔ ∀ rule ∈ rules, rule.holds := by
  cases h with
  | accepts hkept => exact iff_of_true ⟨_, rfl⟩ hkept
  | refuses hfirst => exact iff_of_false nofun hfirst.not_forall

/-- What a check accepts is good. -/
theorem GoesBy.good_of_eq_ok (h : GoesBy rules good check) {a : α} (ha : check = .ok a) : good a := by
  cases h with
  | accepts _ hgood =>
    cases ha
    exact hgood
  | refuses => contradiction

/-- A check refuses with the first rule that is broken. -/
theorem GoesBy.eq_error_iff (h : GoesBy rules good check) :
    check = .error violation ↔ FirstBroken rules violation := by
  cases h with
  | accepts hkept => exact iff_of_false nofun fun hfirst => hfirst.not_forall hkept
  | refuses hfirst =>
    rw [Except.error.injEq]
    exact ⟨fun heq => heq ▸ hfirst, fun hfirst' => hfirst.unique hfirst'⟩

end

/-! ### The rules of numbers -/

/-- A duration is not negative. -/
def Rule.duration (field : String) (value : Int64) : Rule :=
  ⟨0 ≤ value.toInt, .negative field value⟩

/-- A duration is not negative or disabled by `-1`. -/
def Rule.optionalDuration (field : String) (value : Int64) : Rule :=
  ⟨-1 ≤ value.toInt, .negative field value⟩

/-- A size has 32 bits. -/
def Rule.size (field : String) (value : Int64) : Rule :=
  ⟨0 ≤ value.toInt ∧ value.toInt < 2 ^ 32, .negative field value⟩

/-- A size has 32 bits or is disabled by `-1`. -/
def Rule.optionalSize (field : String) (value : Int64) : Rule :=
  ⟨-1 ≤ value.toInt ∧ value.toInt < 2 ^ 32, .size field value⟩

/-- A bound on attempts has 32 bits or is lifted by `-1`. -/
def Rule.attempts (field : String) (value : Int64) : Rule :=
  ⟨-1 ≤ value.toInt ∧ value.toInt < 2 ^ 32, .attempts field value⟩

/-- The number by which an optional one is configured: `-1` for none. -/
def configured : Option Nat → Int
  | none => -1
  | some n => n

/-- Where `-1` is accepted before anything else is checked, the rule is left to the other numbers. -/
theorem GoesBy.disabled {value : Int64} {holds : Prop} {good : α → Prop} {none : α}
    {rest : Except Violation α} (hnone : value.toInt = -1 → holds ∧ good none)
    (hrest : value.toInt ≠ -1 → GoesBy [⟨holds, violation⟩] good rest) :
    GoesBy [⟨holds, violation⟩] good (if value = -1 then .ok none else rest) := by
  have hvalue : value = -1 ↔ value.toInt = -1 := Int64.toInt_inj.symm
  split
  next hdisabled =>
    obtain ⟨hholds, hgood⟩ := hnone (hvalue.mp hdisabled)
    exact .accepts (List.forall_mem_singleton.mpr hholds) hgood
  next henabled => exact hrest fun hdisabled => henabled (hvalue.mpr hdisabled)

/-- A duration that is not negative is taken as a natural number. -/
theorem duration_eq (field : String) (value : Int64) :
    duration field value =
      if 0 ≤ value.toInt then .ok value.toInt.toNat else .error (.negative field value) := by
  simp only [duration, ← Int.not_le, ite_not]

/-- A duration is checked by its rule and stands for the same number. -/
theorem duration_goesBy (field : String) (value : Int64) :
    GoesBy [.duration field value] (fun n : Nat => (n : Int) = value.toInt) (duration field value) := by
  rw [duration_eq]
  exact .single Iff.rfl fun hholds => Int.toNat_of_nonneg hholds

/-- A size is checked by its rule and stands for the same number. -/
theorem requiredSize_goesBy (field : String) (value : Int64) :
    GoesBy [.size field value] (fun n : Nat => (n : Int) = value.toInt) (requiredSize field value) :=
  .single Iff.rfl fun hholds => Int.toNat_of_nonneg hholds.1

/-- A duration that may be disabled is checked by its rule and stands for the same configured number. -/
theorem optionalDuration_goesBy (field : String) (value : Int64) :
    GoesBy [.optionalDuration field value] (fun n => configured n = value.toInt)
      (optionalDuration field value) := by
  refine .disabled (fun hdisabled => ⟨hdisabled.ge, hdisabled.symm⟩) fun henabled => ?_
  have hcheck : (duration field value).map some =
      if 0 ≤ value.toInt then .ok (some value.toInt.toNat) else .error (.negative field value) := by
    rw [duration_eq]
    split <;> rfl
  rw [hcheck]
  refine .single ?_ fun hholds => ?_
  · omega
  · exact Int.toNat_of_nonneg (by omega)

/-- A size that may be disabled is checked by its rule and stands for the same configured number. -/
theorem optionalSize_goesBy (field : String) (value : Int64) :
    GoesBy [.optionalSize field value] (fun n => configured n = value.toInt)
      (optionalSize field value) := by
  refine .disabled (fun hdisabled => ⟨?_, hdisabled.symm⟩) fun henabled => .single ?_ fun hholds => ?_
  · omega
  · omega
  · exact Int.toNat_of_nonneg (by omega)

/-- A bound on attempts is checked by its rule and stands for the same configured number. -/
theorem attemptLimit_goesBy (field : String) (value : Int64) :
    GoesBy [.attempts field value] (fun limit => limit.toConfig = value.toInt)
      (attemptLimit field value) := by
  have hcheck : attemptLimit field value = if value = -1 then .ok .unlimited
      else if 0 ≤ value.toInt ∧ value.toInt < 2 ^ 32 then .ok (.limited value.toInt.toNat)
      else .error (.attempts field value) := by
    unfold attemptLimit AttemptLimit.ofConfig?
    split_ifs <;> rfl
  rw [hcheck]
  refine .disabled (fun hdisabled => ⟨?_, hdisabled.symm⟩) fun henabled => .single ?_ fun hholds => ?_
  · omega
  · omega
  · exact Int.toNat_of_nonneg (by omega)

end BrokerAdmin.Bridge
