import BrokerAdmin.Proofs.Selector.Faithful
import Mathlib.Algebra.Ring.Parity

/-!
# Where a selector is cut

The quotes of every piece come in pairs, so a selector has a translation just when the number of its quotes
is even, wherever they stand and whatever stands around them.

A piece that is replaced ends where it did before: no literal runs into a further quote, and no word into
another one. So a translation is cut where its selector is. None of the broker's words is one of the
client's, and therefore a translation is its own translation. Selectors are translated one by one where
what stands between them belongs neither to a word nor to a literal.
-/

namespace BrokerAdmin.Selector

/-! ### Quotes -/

/-- The quotes of a piece come in pairs. -/
theorem Piece.Proper.even_count {p : Piece} (hproper : p.Proper) : Even (p.written.count '\'') := by
  cases p with
  | literal body =>
    refine ⟨body.count '\'' + 1, ?_⟩
    rw [written, Text.enclosed, List.count_append, List.count_cons_self, Text.count_doubled,
      List.count_singleton_self]
    omega
  | word chars =>
    have hnone : '\'' ∉ chars := fun hmem => ne_quote_of_isWordChar (hproper.2 _ hmem) rfl
    rw [written, List.count_eq_zero.mpr hnone]
    exact Even.zero
  | other c =>
    have hnone : '\'' ∉ [c] := by simpa using hproper.1.symm
    rw [written, List.count_eq_zero.mpr hnone]
    exact Even.zero

/-- A selector has no translation just when the number of its quotes is odd. -/
theorem translateChars_eq_none_iff (chars : List Char) :
    translateChars chars = none ↔ Odd (chars.count '\'') := by
  induction chars using piecewise with
  | nil => simp [translateChars, pieces]
  | piece p rest hproper hends ih =>
    rw [translateChars_written_append hproper hends, Option.map_eq_none_iff, ih, List.count_append,
      Nat.odd_add']
    exact (iff_true_right hproper.even_count).symm
  | unterminated rest hnone =>
    have hfails : translateChars ('\'' :: rest) = none := translateFrom_unterminated false hnone
    obtain ⟨body, rfl⟩ := Text.exists_eq_doubled hnone
    rw [List.count_cons_self, Text.count_doubled]
    exact iff_of_true hfails ⟨body.count '\'', rfl⟩

/-- A selector that is not blank has the translation of its characters, or none. -/
theorem toFilter_eq_some_iff {selector filter : String} :
    toFilter (some selector) = .ok (some filter) ↔
      Text.isBlankText selector = false ∧ translateChars selector.toList = some filter.toList := by
  cases hblank : Text.isBlankText selector with
  | true => simp [toFilter, hblank]
  | false => rw [toFilter_eq_ok_iff hblank, eq_self_iff_true, true_and]

/-- A blank selector has no quotes. -/
theorem count_quote_of_isBlankText {selector : String} (hblank : Text.isBlankText selector = true) :
    selector.toList.count '\'' = 0 := by
  refine List.count_eq_zero.mpr fun hmem => ?_
  have hquote := List.all_eq_true.mp hblank _ hmem
  revert hquote
  decide

/-- Translation fails just on the selectors with an odd number of quotes, and its error names the selector.
It finds no filter just in the selectors of nothing but white space. -/
theorem toFilter_fails_iff_odd (selector : String) :
    ((∃ e, toFilter (some selector) = .error e) ↔ Odd (selector.toList.count '\'')) ∧
      (∀ e, toFilter (some selector) = .error e → e.selector = selector) ∧
      (toFilter (some selector) = .ok none ↔ ∀ c ∈ selector.toList, Text.isBlank c = true) := by
  rw [← List.all_eq_true, ← translateChars_eq_none_iff]
  change _ ∧ _ ∧ (_ ↔ Text.isBlankText selector = true)
  cases hblank : Text.isBlankText selector with
  | true =>
    have hsome : translateChars selector.toList ≠ none := by
      rw [Ne, translateChars_eq_none_iff, count_quote_of_isBlankText hblank]
      decide
    simp [toFilter, hblank, hsome]
  | false =>
    cases htranslate : translateChars selector.toList <;> simp [toFilter, hblank, htranslate]

/-! ### What is translated again -/

/-- What takes the place of a text in a table stays when none of the replacements is replaced itself. -/
theorem replaced_replaced {table : List (String × String)}
    (htable : ∀ entry ∈ table, entry.2 ∉ table.map Prod.fst) (chars : List Char) :
    replaced table (replaced table chars) = replaced table chars := by
  rcases replaced_cases table chars with hstays | ⟨entry, hentry, -, himage⟩
  · rw [hstays, hstays]
  · rw [himage]
    apply replaced_of_not_mem
    rw [String.ofList_toList]
    exact htable entry hentry

/-- A piece in the words of the broker stays. -/
theorem Piece.translate_translate (p : Piece) : p.translate.translate = p.translate := by
  cases p with
  | literal body => exact congrArg literal (replaced_replaced (by decide) body)
  | word chars => exact congrArg word (replaced_replaced (by decide) chars)
  | other c => rfl

/-- A piece is proper in the words of the broker, too. -/
theorem Piece.Proper.translate {p : Piece} (hproper : p.Proper) : p.translate.Proper := by
  cases p with
  | literal | other => exact hproper
  | word chars =>
    obtain ⟨hne, hchars⟩ := hproper
    refine ⟨fun hnil => ?_, isWordChar_of_mem_replaced hchars⟩
    have hhead := head?_replaced chars
    rw [hnil] at hhead
    cases chars with
    | nil => contradiction
    | cons c chars => simp at hhead

/-- A piece ends in a translation where it did in the selector. -/
theorem Piece.EndsBefore.translate {p : Piece} {rest later : List Char} (hends : p.EndsBefore rest)
    (hlater : translateChars rest = some later) : p.translate.EndsBefore later := by
  have hfrom : translateFrom false rest = some later := hlater
  cases p with
  | literal body =>
    change later.head? ≠ some '\''
    rcases head?_translateFrom hfrom with hhead | ⟨-, hhead⟩
    · exact hhead ▸ hends
    · rw [hhead]
      decide
  | word chars => exact (head?_any_translateFrom (by decide) hfrom).trans hends
  | other c => trivial

/-- The characters of a translation are their own translation. -/
theorem translateChars_of_translateChars {chars out : List Char} (h : translateChars chars = some out) :
    translateChars out = some out := by
  induction chars using piecewise generalizing out with
  | nil =>
    rw [← Option.some.inj ((translateFrom_nil false).symm.trans h)]
    exact translateFrom_nil false
  | piece p rest hproper hends ih =>
    rw [translateChars_written_append hproper hends] at h
    obtain ⟨later, hlater, rfl⟩ := Option.map_eq_some_iff.mp h
    rw [translateChars_written_append hproper.translate (hends.translate hlater), p.translate_translate,
      ih hlater]
    rfl
  | unterminated rest hnone =>
    cases h.symm.trans (translateFrom_unterminated false hnone)

/-! ### What is put together -/

/-- A piece ends before what it ended before, whatever is put behind that, if every piece ends there. -/
theorem Piece.EndsBefore.append {p : Piece} {rest tail : List Char} (hends : p.EndsBefore rest)
    (htail : ∀ q : Piece, q.EndsBefore tail) : p.EndsBefore (rest ++ tail) := by
  cases rest with
  | nil => exact htail p
  | cons c rest => cases p <;> exact hends

/-- The characters of a selector are translated as they are alone where every piece ends before those that
follow. -/
theorem translateChars_append {chars out tail : List Char} (h : translateChars chars = some out)
    (htail : ∀ p : Piece, p.EndsBefore tail) :
    translateChars (chars ++ tail) = (translateChars tail).map (out ++ ·) := by
  induction chars using piecewise generalizing out with
  | nil =>
    rw [← Option.some.inj ((translateFrom_nil false).symm.trans h)]
    simp
  | piece p rest hproper hends ih =>
    rw [translateChars_written_append hproper hends] at h
    obtain ⟨later, hlater, rfl⟩ := Option.map_eq_some_iff.mp h
    rw [List.append_assoc, translateChars_written_append hproper (hends.append htail), ih hlater]
    simp [Function.comp_def]
  | unterminated rest hnone =>
    cases h.symm.trans (translateFrom_unterminated false hnone)

/-- Every piece ends before signs that belong neither to a word nor to a literal. -/
theorem Piece.endsBefore_signs {signs : List Char} (hne : signs ≠ [])
    (hsigns : ∀ c ∈ signs, c ≠ '\'' ∧ isWordChar c = false) (rest : List Char) (p : Piece) :
    p.EndsBefore (signs ++ rest) := by
  cases signs with
  | nil => contradiction
  | cons c signs =>
    obtain ⟨hquote, hword⟩ := hsigns c List.mem_cons_self
    cases p with
    | literal body => simpa [EndsBefore] using hquote
    | word chars => exact hword
    | other d => trivial

/-- A translation is its own translation. Two selectors that are translated are translated one by one when
they are put together with a text between them that is not empty and has neither quotes nor characters of
words. -/
theorem toFilter_idempotent_compositional {selector filter : String}
    (h : toFilter (some selector) = .ok (some filter)) :
    toFilter (some filter) = .ok (some filter) ∧
      ∀ between selector' filter' : String, toFilter (some selector') = .ok (some filter') →
        between ≠ "" → (∀ c ∈ between.toList, c ≠ '\'' ∧ isWordChar c = false) →
        toFilter (some (selector ++ between ++ selector')) =
          .ok (some (filter ++ between ++ filter')) := by
  obtain ⟨hblank, hchars⟩ := toFilter_eq_some_iff.mp h
  refine ⟨toFilter_eq_some_iff.mpr ⟨isBlankText_of_toFilter h, translateChars_of_translateChars hchars⟩,
    fun between selector' filter' h' hne hsigns => toFilter_eq_some_iff.mpr ⟨?_, ?_⟩⟩
  · simp only [Text.isBlankText] at hblank
    simp [Text.isBlankText, hblank]
  · have hlater : translateChars selector'.toList = some filter'.toList := (toFilter_eq_some_iff.mp h').2
    have hbetween := translateFrom_others hsigns selector'.toList
    have hsplit : between.toList ≠ [] := by simpa using hne
    simp only [String.toList_append, List.append_assoc]
    rw [translateChars_append hchars (Piece.endsBefore_signs hsplit hsigns selector'.toList)]
    change (translateFrom false _).map _ = _
    rw [hbetween]
    change ((translateChars _).map _).map _ = _
    rw [hlater]
    rfl

/-- Two literals are not joined, and the words next to them are translated on either side. -/
theorem toFilter_idempotent_compositional_modes :
    (toFilter (some "JMSDeliveryMode='PERSISTENT'") = .ok (some "AMQDurable='DURABLE'") ∧
        toFilter (some "'NON_PERSISTENT'=JMSDeliveryMode") = .ok (some "'NON_DURABLE'=AMQDurable")) ∧
      toFilter (some "AMQDurable='DURABLE'") = .ok (some "AMQDurable='DURABLE'") ∧
      toFilter (some ("JMSDeliveryMode='PERSISTENT'" ++ "." ++ "'NON_PERSISTENT'=JMSDeliveryMode")) =
        .ok (some ("AMQDurable='DURABLE'" ++ "." ++ "'NON_DURABLE'=AMQDurable")) := by
  have h : toFilter (some "JMSDeliveryMode='PERSISTENT'") = .ok (some "AMQDurable='DURABLE'") := by
    decide +kernel
  have h' : toFilter (some "'NON_PERSISTENT'=JMSDeliveryMode") =
      .ok (some "'NON_DURABLE'=AMQDurable") := by decide +kernel
  have hdot : ∀ c ∈ ".".toList, c ≠ '\'' ∧ isWordChar c = false := by
    intro c hc
    obtain rfl : c = '.' := by simpa using hc
    decide
  obtain ⟨hsame, hjoined⟩ := toFilter_idempotent_compositional h
  exact ⟨⟨h, h'⟩, hsame, hjoined "." _ _ h' (by decide) hdot⟩

end BrokerAdmin.Selector
