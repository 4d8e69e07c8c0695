import BrokerAdmin.Text.SingleQuoted

/-!
# Reading single-quoted literals

A literal that has been written is read back, whatever follows it other than a further quote. A quote
that follows would be taken together with the closing one; reading itself never stops before a quote.
What is read has been written, and what cannot be read has no quotes but doubled ones.
-/

namespace BrokerAdmin.Text

/-- A literal is written character by character. -/
theorem doubled_cons (c : Char) (body : List Char) :
    doubled (c :: body) = (if c = '\'' then ['\'', '\''] else [c]) ++ doubled body := rfl

/-- The quotes of a literal are doubled. -/
theorem count_doubled (body : List Char) : (doubled body).count '\'' = 2 * body.count '\'' := by
  induction body with
  | nil => rfl
  | cons c body ih =>
    rw [doubled_cons, List.count_append, ih, List.count_cons]
    by_cases hc : c = '\''
    · subst hc
      simp
      omega
    · simp [hc]

/-- A closing quote ends a literal when no quote follows it. -/
theorem literal?_quote {rest : List Char} (hrest : rest.head? ≠ some '\'') :
    literal? ('\'' :: rest) = some ([], rest) := by
  cases rest with
  | nil => rfl
  | cons c rest =>
    have hc : c ≠ '\'' := by simpa using hrest
    rw [literal?]
    simp [hc]

/-- What is written as a literal is read as it was. -/
theorem literal?_doubled (body : List Char) {rest : List Char} (hrest : rest.head? ≠ some '\'') :
    literal? (doubled body ++ '\'' :: rest) = some (body, rest) := by
  induction body with
  | nil => exact literal?_quote hrest
  | cons c body ih =>
    rw [doubled_cons, List.append_assoc]
    by_cases hc : c = '\''
    · rw [if_pos hc, hc, List.cons_append, List.singleton_append, literal?, ih]
      rfl
    · rw [if_neg hc, List.singleton_append, literal?, ih]
      · rfl
      · exact fun _ heq => absurd heq hc
      · exact fun heq => absurd heq hc

/-- No quote follows a literal that has been read. -/
theorem head?_ne_of_literal? {chars body rest : List Char}
    (h : literal? chars = some (body, rest)) : rest.head? ≠ some '\'' := by
  fun_induction literal? chars generalizing body rest with
  | case1 => simp at h
  | case2 more ih =>
    obtain ⟨⟨body', rest'⟩, hmore, heq⟩ := Option.map_eq_some_iff.mp h
    simp only [Prod.mk.injEq] at heq
    exact heq.2 ▸ ih hmore
  | case3 more hmore =>
    simp only [Option.some.injEq, Prod.mk.injEq] at h
    rw [← h.2]
    cases more with
    | nil => simp
    | cons c more =>
      intro heq
      simp only [List.head?_cons, Option.some.injEq] at heq
      exact hmore more (by rw [heq])
  | case4 c more _ _ ih =>
    obtain ⟨⟨body', rest'⟩, hmore, heq⟩ := Option.map_eq_some_iff.mp h
    simp only [Prod.mk.injEq] at heq
    exact heq.2 ▸ ih hmore

/-- A literal that has been read is written as it stands there. -/
theorem eq_of_literal? {chars body rest : List Char} (h : literal? chars = some (body, rest)) :
    chars = doubled body ++ '\'' :: rest := by
  fun_induction literal? chars generalizing body rest with
  | case1 => simp at h
  | case2 more ih =>
    obtain ⟨⟨body', rest'⟩, hmore, heq⟩ := Option.map_eq_some_iff.mp h
    simp only [Prod.mk.injEq] at heq
    rw [← heq.1, ← heq.2, doubled_cons, if_pos rfl, ih hmore]
    rfl
  | case3 more hmore =>
    simp only [Option.some.injEq, Prod.mk.injEq] at h
    rw [← h.1, ← h.2]
    rfl
  | case4 c more _ hc ih =>
    obtain ⟨⟨body', rest'⟩, hmore, heq⟩ := Option.map_eq_some_iff.mp h
    simp only [Prod.mk.injEq] at heq
    rw [← heq.1, ← heq.2, doubled_cons, if_neg hc, ih hmore]
    rfl

/-- A literal that is not closed has no quotes but doubled ones. -/
theorem exists_eq_doubled {chars : List Char} (h : literal? chars = none) :
    ∃ body, chars = doubled body := by
  fun_induction literal? chars with
  | case1 => exact ⟨[], rfl⟩
  | case2 more ih =>
    obtain ⟨body, rfl⟩ := ih (Option.map_eq_none_iff.mp h)
    exact ⟨'\'' :: body, rfl⟩
  | case3 => contradiction
  | case4 c more _ hc ih =>
    obtain ⟨body, rfl⟩ := ih (Option.map_eq_none_iff.mp h)
    refine ⟨c :: body, ?_⟩
    rw [doubled_cons, if_neg hc]
    rfl

end BrokerAdmin.Text
