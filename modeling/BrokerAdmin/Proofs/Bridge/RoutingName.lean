import BrokerAdmin.Bridge.RoutingType
import BrokerAdmin.Proofs.Filter.Scanning

/-!
# The names of routing types

A text names a routing type when it is the name with white space around it and its letters in any case.
White space and the letters of names are apart, so what is left of such a text when it is trimmed is the name.
-/

namespace BrokerAdmin

namespace Text

/-- There is nothing but white space in a text. -/
def Blank (text : String) : Prop :=
  ∀ c ∈ text.toList, isBlank c = true

/-- A text is found blank when it is. -/
theorem isBlankText_iff {text : String} : isBlankText text = true ↔ Blank text :=
  List.all_eq_true

/-- A trimmed text is a part of the text, and there is nothing but white space around it. -/
theorem exists_trimChars (chars : List Char) :
    ∃ before after, chars = before ++ trimChars chars ++ after ∧ (∀ c ∈ before, isBlank c = true) ∧
      ∀ c ∈ after, isBlank c = true := by
  have hfront := (List.takeWhile_append_dropWhile (p := isBlank) (l := chars)).symm
  have hback := congrArg List.reverse
    (List.takeWhile_append_dropWhile (p := isBlank) (l := (chars.dropWhile isBlank).reverse)).symm
  rw [List.reverse_reverse, List.reverse_append] at hback
  refine ⟨chars.takeWhile isBlank, ((chars.dropWhile isBlank).reverse.takeWhile isBlank).reverse, ?_,
    fun _ => List.mem_takeWhile_imp, ?_⟩
  · rw [trimChars, List.append_assoc, ← hback, ← hfront]
  · intro c hc
    exact List.mem_takeWhile_imp (List.mem_reverse.mp hc)

/-- What begins with a word without white space does not begin with white space. -/
theorem head?_append_any_isBlank {word rest : List Char} (hword : ∀ c ∈ word, isBlank c = false)
    (hne : word ≠ []) : (word ++ rest).head?.any isBlank = false := by
  cases word with
  | nil => exact absurd rfl hne
  | cons c word => simpa using hword c List.mem_cons_self

/-- A word without white space in it is what is left when the white space around it is dropped. -/
theorem trimChars_word {before word after : List Char} (hbefore : ∀ c ∈ before, isBlank c = true)
    (hafter : ∀ c ∈ after, isBlank c = true) (hword : ∀ c ∈ word, isBlank c = false) :
    trimChars (before ++ word ++ after) = word := by
  by_cases hne : word = []
  · subst hne
    have hall : ∀ c ∈ before ++ [] ++ after, isBlank c = true := by
      intro c hc
      rcases List.mem_append.mp hc with hc | hc
      · exact hbefore c (by simpa using hc)
      · exact hafter c hc
    rw [trimChars, List.dropWhile_eq_nil_iff.mpr hall]
    rfl
  · have hreversed : ∀ c ∈ after.reverse, isBlank c = true :=
      fun c hc => hafter c (List.mem_reverse.mp hc)
    have hword' : ∀ c ∈ word.reverse, isBlank c = false := fun c hc => hword c (List.mem_reverse.mp hc)
    have hend : word.reverse.head?.any isBlank = false := by
      have happend := @head?_append_any_isBlank word.reverse [] hword' (by simpa using hne)
      rwa [List.append_nil] at happend
    rw [trimChars, List.append_assoc,
      Filter.dropWhile_append_of_stop hbefore (head?_append_any_isBlank hword hne), List.reverse_append,
      Filter.dropWhile_append_of_stop hreversed hend, List.reverse_reverse]

/-- White space has no cases. -/
theorem toUpper_of_isBlank {c : Char} (hc : isBlank c = true) : c.toUpper = c := by
  have hcode := toNat_of_isBlank hc
  have hlower : ¬ (c.val ≥ 'a'.val ∧ c.val ≤ 'z'.val) := by
    simp only [ge_iff_le, UInt32.le_iff_toNat_le, Char.toNat_val]
    have ha : 'a'.toNat = 97 := rfl
    have hz : 'z'.toNat = 122 := rfl
    omega
  exact dif_neg hlower

end Text

namespace Bridge.RoutingType

/-- A text names a routing type, up to the case of letters and white space around the name. -/
def NamedBy (routing : RoutingType) (text : String) : Prop :=
  ∃ before word after, text.toList = before ++ word ++ after ∧ (∀ c ∈ before, Text.isBlank c = true) ∧
    (∀ c ∈ after, Text.isBlank c = true) ∧ word.map Char.toUpper = routing.name.toList

/-- There is no white space in the name of a routing type. -/
theorem isBlank_of_mem_name {routing : RoutingType} {c : Char} (hc : c ∈ routing.name.toList) :
    Text.isBlank c = false := by
  have hall : routing.name.toList.all (fun c => !Text.isBlank c) = true := by cases routing <;> decide
  simpa using List.all_eq_true.mp hall c hc

/-- No two routing types have one name. -/
theorem find?_every_eq_some_iff {name : String} {routing : RoutingType} :
    (every.find? fun other => other.name == name) = some routing ↔ routing.name = name := by
  constructor
  · intro h
    simpa using List.find?_some h
  · rintro rfl
    cases routing <;> rfl

/-- The routing type that is read from a text is the one that the text names. -/
theorem ofText?_eq_some_iff {text : String} {routing : RoutingType} :
    ofText? text = some routing ↔ routing.NamedBy text := by
  have hupper : routing.name = Text.upper (Text.trim text) ↔
      (Text.trimChars text.toList).map Char.toUpper = routing.name.toList := by
    rw [Text.upper, Text.trim, String.toList_ofList, ← String.toList_inj, String.toList_ofList, eq_comm]
  rw [ofText?, find?_every_eq_some_iff, hupper]
  constructor
  · intro hname
    obtain ⟨before, after, htext, hbefore, hafter⟩ := Text.exists_trimChars text.toList
    exact ⟨before, Text.trimChars text.toList, after, htext, hbefore, hafter, hname⟩
  · rintro ⟨before, word, after, htext, hbefore, hafter, hname⟩
    have hword : ∀ c ∈ word, Text.isBlank c = false := by
      intro c hc
      rw [Bool.eq_false_iff]
      intro hblank
      have hmem : c ∈ routing.name.toList := by
        rw [← hname, ← Text.toUpper_of_isBlank hblank]
        exact List.mem_map_of_mem hc
      exact Bool.false_ne_true ((isBlank_of_mem_name hmem).symm.trans hblank)
    rw [htext, Text.trimChars_word hbefore hafter hword, hname]

example : strip.NamedBy " Strip " := ofText?_eq_some_iff.mp (by decide)

end Bridge.RoutingType

end BrokerAdmin
