import BrokerAdmin.Proofs.Selector.Meaning

/-!
# What translation accepts

A selector is translated into something that can be read as a filter just when it can be read as one
itself. One direction is that a filter with names and words replaced is still a filter. For the other, the
tokens of the translation are put back: where the translation is scanned so is the selector, its tokens
are those of the translation before the replacement, and a list of tokens is a phrase if its renaming is.

Whether tokens have been renamed one by one is known from the translation alone: an identifier behind a
number in the selector would stand behind a number in the translation as well, and there it is no filter.
-/

namespace BrokerAdmin.Selector

open BrokerAdmin.Filter (Token scan)

/-! ### From the translation back to the selector -/

/-- What begins with an identifier begins with one after translation too. -/
theorem Renamed.head?_eq_ident {inWord : Bool} {tokens tokens' : List Token}
    (h : Renamed inWord tokens tokens') {name : String} (hhead : tokens.head? = some (.ident name)) :
    ∃ name', tokens'.head? = some (.ident name') := by
  cases h with
  | nil => cases hhead
  | token =>
    obtain rfl := Option.some.inj hhead
    exact ⟨brokerName name, rfl⟩
  | inside => exact ⟨_, rfl⟩

/-- No identifier of a selector stands right after a number if none of its translation does. -/
theorem Renamed.isChain {inWord : Bool} {tokens tokens' : List Token}
    (h : Renamed inWord tokens tokens') (htokens' : tokens'.IsChain Token.Precedes) :
    tokens.IsChain Token.Precedes := by
  induction h with
  | nil => exact .nil
  | @token inWord next token tokens tokens' _ hmore ih =>
    obtain ⟨hprecedes, htokens'⟩ := List.isChain_cons.mp htokens'
    refine List.isChain_cons.mpr ⟨?_, ih htokens'⟩
    intro later hlater x name hnumber hident
    subst hnumber hident
    obtain ⟨name', hname'⟩ := hmore.head?_eq_ident hlater
    exact hprecedes _ hname' x name' rfl rfl
  | inside _ ih =>
    obtain ⟨-, htokens'⟩ := List.isChain_cons.mp htokens'
    exact List.isChain_cons.mpr ⟨fun _ _ _ _ hnumber => (nomatch hnumber), ih htokens'⟩

/-- A text whose translation is scanned is scanned itself. -/
theorem Follows.exists_of_some_ok {inWord : Bool} {before : Except Filter.Error (List Token)}
    {tokens' : List Token} (h : Follows inWord before (some (.ok tokens'))) :
    ∃ tokens, before = .ok tokens ∧ Renamed inWord tokens tokens' := by
  match before, h with
  | .ok tokens, h => exact ⟨tokens, rfl, h⟩

/-- A translation is that of the characters of a selector that is not blank. -/
theorem toFilter_eq_ok_iff {selector filter : String} (hblank : Text.isBlankText selector = false) :
    toFilter (some selector) = .ok (some filter) ↔
      translateChars selector.toList = some filter.toList := by
  simp only [toFilter, hblank, Bool.false_eq_true, if_false]
  cases translateChars selector.toList with
  | none => simp
  | some chars =>
    simp only [Except.ok.injEq, Option.some.injEq]
    constructor
    · rintro rfl
      rw [String.toList_ofList]
    · rintro rfl
      rw [String.ofList_toList]

/-- A translation is never blank. -/
theorem isBlankText_of_toFilter {selector filter : String}
    (h : toFilter (some selector) = .ok (some filter)) : Text.isBlankText filter = false := by
  cases hselector : Text.isBlankText selector with
  | true => simp [toFilter, hselector] at h
  | false =>
    have hchars : translateFrom false selector.toList = some filter.toList :=
      (toFilter_eq_ok_iff hselector).mp h
    rw [Bool.eq_false_iff]
    intro hfilter
    have hall := all_isBlank_of_translateFrom hchars (List.all_eq_true.mp hfilter)
    rw [Text.isBlankText, List.all_eq_true.mpr hall] at hselector
    contradiction

/-- A selector whose translation can be read as a filter can be read as one itself, of the same
expression in the words of the client. -/
theorem exists_parse_of_toFilter {selector filter : String} {e' : Filter.Expr}
    (hblank : Text.isBlankText selector = false)
    (htranslate : toFilter (some selector) = .ok (some filter)) (h : Filter.parse filter = .ok e') :
    ∃ e, Filter.parse selector = .ok e ∧ e.rename brokerName brokerText = e' := by
  obtain ⟨tokens', hscan', depth, hdepth, hderives'⟩ := (Filter.parse_eq_ok_iff filter e').mp h
  have hchars : translateFrom false selector.toList = some filter.toList :=
    (toFilter_eq_ok_iff hblank).mp htranslate
  have hfollows := followsAll selector.toList false
  rw [hchars, Option.map_some, hscan'] at hfollows
  obtain ⟨tokens, hscan, hrenamed⟩ := hfollows.exists_of_some_ok
  have hrename : tokens' = tokens.map brokerToken :=
    hrenamed.eq_map (hrenamed.isChain hderives'.isChain) (by simp)
  obtain ⟨e, hderives, hexpr⟩ := hderives'.of_rename hrename.symm
  exact ⟨e, (Filter.parse_eq_ok_iff selector e).mpr ⟨tokens, hscan, depth, hdepth, hderives⟩, hexpr⟩

/-! ### The two words that are replaced -/

/-- The broker has words of its own for the two ways of delivery, and no others. -/
theorem brokerText_eq (text : String) :
    brokerText text =
      if text = "PERSISTENT" then "DURABLE"
      else if text = "NON_PERSISTENT" then "NON_DURABLE" else text := by
  by_cases hpersistent : text = "PERSISTENT"
  · subst hpersistent
    decide
  by_cases hnonPersistent : text = "NON_PERSISTENT"
  · subst hnonPersistent
    decide
  rw [if_neg hpersistent, if_neg hnonPersistent]
  apply brokerText_of_not_mem
  simp [deliveryModes, hpersistent, hnonPersistent]

/-! ### What is accepted -/

/-- Translation neither breaks a selector nor repairs one. A selector that has no translation is no filter.
Of any other that is not blank the translation is a filter just when the selector is, and then the two
have the same expression up to the names and the two words for the ways of delivery. -/
theorem toFilter_accepts_filters {selector : String} (hblank : Text.isBlankText selector = false) :
    (∀ err, toFilter (some selector) = .error err → ∃ e, Filter.parse selector = .error e) ∧
    toFilter (some selector) ≠ .ok none ∧
    (∀ filter, toFilter (some selector) = .ok (some filter) →
      ((∃ e, Filter.parse selector = .ok e) ↔ ∃ e', Filter.parse filter = .ok e') ∧
      ∀ e e', Filter.parse selector = .ok e → Filter.parse filter = .ok e' →
        e' = e.rename brokerName brokerText) ∧
    ∀ text, brokerText text =
      if text = "PERSISTENT" then "DURABLE"
      else if text = "NON_PERSISTENT" then "NON_DURABLE" else text := by
  have hforth : ∀ filter, toFilter (some selector) = .ok (some filter) → ∀ e,
      Filter.parse selector = .ok e → Filter.parse filter = .ok (e.rename brokerName brokerText) := by
    intro filter htranslate e he
    obtain ⟨filter', htranslate', hfilter'⟩ := parse_toFilter he
    rw [htranslate] at htranslate'
    obtain rfl : filter = filter' := by simpa using htranslate'
    exact hfilter'
  refine ⟨fun err herr => ?_, ?_, fun filter htranslate => ⟨⟨?_, ?_⟩, ?_⟩, brokerText_eq⟩
  · cases hparse : Filter.parse selector with
    | error e => exact ⟨e, rfl⟩
    | ok e =>
      obtain ⟨filter, htranslate, -⟩ := parse_toFilter hparse
      cases herr.symm.trans htranslate
  · simp only [toFilter, hblank, Bool.false_eq_true, if_false]
    cases translateChars selector.toList <;> simp
  · rintro ⟨e, he⟩
    exact ⟨_, hforth filter htranslate e he⟩
  · rintro ⟨e', he'⟩
    obtain ⟨e, he, -⟩ := exists_parse_of_toFilter hblank htranslate he'
    exact ⟨e, he⟩
  · intro e e' he he'
    exact Except.ok.inj (he'.symm.trans (hforth filter htranslate e he))

/-- A comparison with a priority is translated into one with the header that the broker knows. -/
theorem toFilter_accepts_filters_priority :
    Text.isBlankText "JMSPriority > 4" = false ∧
      ∃ filter e', toFilter (some "JMSPriority > 4") = .ok (some filter) ∧ Filter.parse filter = .ok e' ∧
        e' = .compare "AMQPriority" .gt (.number (.ofInt 4)) := by
  have hblank : Text.isBlankText "JMSPriority > 4" = false := by decide
  have hparse : Filter.parse "JMSPriority > 4" =
      .ok (.compare "JMSPriority" .gt (.number (.ofInt 4))) := by with_unfolding_all rfl
  obtain ⟨filter, htranslate, -⟩ := parse_toFilter hparse
  obtain ⟨hiff, hexpr⟩ := (toFilter_accepts_filters hblank).2.2.1 filter htranslate
  obtain ⟨e', hfilter⟩ := hiff.mp ⟨_, hparse⟩
  exact ⟨hblank, filter, e', htranslate, hfilter, (hexpr _ e' hparse hfilter).trans (by rfl)⟩

end BrokerAdmin.Selector
