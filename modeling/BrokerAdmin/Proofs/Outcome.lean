import Mathlib.Data.List.Forall2

/-!
# Answers that may be errors

When a changed answer is a success, the answer before the change was one too, and a list of answers is a
success when each of them is. The proofs take readers and operations apart by these equivalences instead
of opening the sum type each time. A loop that is ended by a failure is ended by the first one.
-/

namespace BrokerAdmin

variable {ε ε' α β : Type}

/-- A changed result is a success exactly when it comes from one. -/
theorem map_eq_ok_iff {f : α → β} {answer : Except ε α} {b : β} :
    answer.map f = .ok b ↔ ∃ a, answer = .ok a ∧ f a = b := by
  cases answer <;> simp [Except.map]

/-- A changed result is an error exactly when it is that error before the change. -/
theorem map_eq_error_iff {f : α → β} {answer : Except ε α} {e : ε} :
    answer.map f = .error e ↔ answer = .error e := by
  cases answer <;> simp [Except.map]

/-- A changed error is an error, and comes from one. -/
theorem mapError_eq_error_iff {f : ε → ε'} {answer : Except ε α} {e' : ε'} :
    answer.mapError f = .error e' ↔ ∃ e, answer = .error e ∧ f e = e' := by
  cases answer with
  | ok a => exact ⟨nofun, fun ⟨e, h, _⟩ => nomatch h⟩
  | error e =>
    have written : (Except.error e : Except ε α).mapError f = .error (f e) := rfl
    rw [written, Except.error.injEq]
    simp

/-- A changed error is no success, and a success stays what it is. -/
theorem mapError_eq_ok_iff {f : ε → ε'} {answer : Except ε α} {a : α} :
    answer.mapError f = .ok a ↔ answer = .ok a := by
  cases answer with
  | error e => exact ⟨nofun, nofun⟩
  | ok b =>
    have written : (Except.ok b).mapError f = .ok b := rfl
    rw [written, Except.ok.injEq, Except.ok.injEq]

/-- What goes on after an answer is a success exactly when both are. -/
theorem bind_eq_ok_iff {answer : Except ε α} {next : α → Except ε β} {b : β} :
    (answer >>= next) = .ok b ↔ ∃ a, answer = .ok a ∧ next a = .ok b := by
  cases answer <;> simp [bind, Except.bind]

/-- What goes on after an answer fails where either of them does. -/
theorem bind_eq_error_iff {answer : Except ε α} {next : α → Except ε β} {e : ε} :
    (answer >>= next) = .error e ↔ answer = .error e ∨ ∃ a, answer = .ok a ∧ next a = .error e := by
  cases answer <;> simp [bind, Except.bind]

/-- A list of answers is a success exactly when each of them is. -/
theorem mapM_eq_ok_iff {f : α → Except ε β} {items : List α} {results : List β} :
    items.mapM f = .ok results ↔ List.Forall₂ (fun a b => f a = .ok b) items results := by
  induction items generalizing results with
  | nil =>
    rw [List.mapM_nil, List.forall₂_nil_left_iff]
    exact ⟨fun h => (Except.ok.inj h).symm, fun h => h ▸ rfl⟩
  | cons a items ih =>
    rw [List.mapM_cons, bind_eq_ok_iff, List.forall₂_cons_left_iff]
    simp only [bind_eq_ok_iff, ih]
    constructor
    · rintro ⟨b, hb, rest, hrest, heq⟩
      exact ⟨b, rest, hb, hrest, (Except.ok.inj heq).symm⟩
    · rintro ⟨b, rest, hb, hrest, rfl⟩
      exact ⟨b, hb, rest, hrest, rfl⟩

/-- A list of answers is told by the answer for each of its items. -/
theorem mapM_congr {f g : α → Except ε β} {items : List α} (h : ∀ a ∈ items, f a = g a) :
    items.mapM f = items.mapM g := by
  induction items with
  | nil => rfl
  | cons a items ih =>
    obtain ⟨ha, hitems⟩ := List.forall_mem_cons.mp h
    rw [List.mapM_cons, List.mapM_cons, ha, ih hitems]

/-- Each result of a list of answers is that of one of the items. -/
theorem exists_of_mem_mapM_eq_ok {f : α → Except ε β} {items : List α} {results : List β}
    (h : items.mapM f = .ok results) {b : β} (hb : b ∈ results) : ∃ a ∈ items, f a = .ok b := by
  have hall := mapM_eq_ok_iff.mp h
  induction hall with
  | nil => contradiction
  | @cons a result items results hresult hall ih =>
    rcases List.mem_cons.mp hb with rfl | hb
    · exact ⟨a, List.mem_cons_self, hresult⟩
    · obtain ⟨a', ha', hfa'⟩ := ih (mapM_eq_ok_iff.mpr hall) hb
      exact ⟨a', List.mem_cons_of_mem a ha', hfa'⟩

/-- A list of answers is a success when there is a result for each item. -/
theorem exists_mapM_eq_ok {f : α → Except ε β} {items : List α} (h : ∀ a ∈ items, ∃ b, f a = .ok b) :
    ∃ results, items.mapM f = .ok results := by
  simp only [mapM_eq_ok_iff]
  induction items with
  | nil => exact ⟨[], .nil⟩
  | cons a items ih =>
    obtain ⟨⟨b, hb⟩, hitems⟩ := List.forall_mem_cons.mp h
    obtain ⟨results, hresults⟩ := ih hitems
    exact ⟨b :: results, .cons hb hresults⟩

/-- Where some item of a list has a property, a first one has it. -/
theorem exists_first {p : α → Prop} {items : List α} (h : ∃ a ∈ items, p a) :
    ∃ before a after, items = before ++ a :: after ∧ (∀ b ∈ before, ¬ p b) ∧ p a := by
  classical
  obtain ⟨a, ha, hpa⟩ := h
  obtain ⟨first, before, after, hbefore, hfirst, hitems, -⟩ :=
    List.exists_of_eraseP (p := fun a => decide (p a)) ha (decide_eq_true hpa)
  exact ⟨before, first, after, hitems, by simpa using hbefore, of_decide_eq_true hfirst⟩

/-- A list of answers fails where an item fails and those before it do not. -/
theorem mapM_eq_error_of_first {f : α → Except ε β} {before after : List α} {a : α} {e : ε}
    (hbefore : ∀ b ∈ before, ∃ result, f b = .ok result) (ha : f a = .error e) :
    (before ++ a :: after).mapM f = .error e := by
  induction before with
  | nil =>
    rw [List.nil_append, List.mapM_cons, ha]
    rfl
  | cons first before ih =>
    obtain ⟨⟨result, hresult⟩, hbefore⟩ := List.forall_mem_cons.mp hbefore
    rw [List.cons_append, List.mapM_cons, hresult]
    change (before ++ a :: after).mapM f >>= _ = _
    rw [ih hbefore]
    rfl

/-- A list of answers fails with the failure of the first item that has one. -/
theorem mapM_eq_error_iff {f : α → Except ε β} {items : List α} {e : ε} :
    items.mapM f = .error e ↔ ∃ before a after, items = before ++ a :: after ∧
      (∀ b ∈ before, ∃ result, f b = .ok result) ∧ f a = .error e := by
  constructor
  · intro h
    have hfails : ∃ a ∈ items, ¬ ∃ result, f a = .ok result := by
      by_contra hnone
      push Not at hnone
      obtain ⟨results, hresults⟩ := exists_mapM_eq_ok hnone
      rw [h] at hresults
      contradiction
    obtain ⟨before, a, after, rfl, hbefore, ha⟩ := exists_first hfails
    simp only [not_not] at hbefore
    refine ⟨before, a, after, rfl, hbefore, ?_⟩
    cases hfa : f a with
    | ok result => exact absurd ⟨result, hfa⟩ ha
    | error e' => rw [Except.error.inj ((mapM_eq_error_of_first hbefore hfa).symm.trans h)]
  · rintro ⟨before, a, after, rfl, hbefore, ha⟩
    exact mapM_eq_error_of_first hbefore ha

/-- Where every item has a result, some of the items have the results among all that are theirs. -/
theorem mapM_filter_eq_ok {f : α → Except ε β} {items : List α} {results : List β} {p : α → Bool}
    {q : β → Bool} (h : items.mapM f = .ok results) (hpq : ∀ a b, f a = .ok b → p a = q b) :
    (items.filter p).mapM f = .ok (results.filter q) := by
  rw [mapM_eq_ok_iff] at h ⊢
  refine List.rel_filter (fun a b hab => ?_) h
  dsimp only
  rw [hpq a b hab]

end BrokerAdmin
