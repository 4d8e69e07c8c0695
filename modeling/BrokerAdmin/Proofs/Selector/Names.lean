import BrokerAdmin.Proofs.Selector.Pieces

/-!
# The broker's names for identifiers

An identifier of a filter may hold dots, and translation ends a word at each of them. An identifier is
therefore renamed segment by segment: each of the client's names for headers among its segments gives
way to the broker's. Renaming makes no keyword and removes none.
-/

namespace BrokerAdmin.Selector

/-- The segments of a name in the words of the broker; the first one stays where it goes on with a word
that is not replaced. -/
def renameSegments (inWord : Bool) : List (List Char) → List (List Char)
  | [] => []
  | first :: more =>
    (if inWord then first else replaced headers first) :: more.map (replaced headers)

/-- The characters of a name in the words of the broker. -/
def renameChars (inWord : Bool) (name : List Char) : List Char :=
  ['.'].intercalate (renameSegments inWord (name.splitOn '.'))

/-- The broker's name for an identifier. -/
def brokerName (name : String) : String :=
  String.ofList (renameChars false name.toList)

/-- The parts of a name between its dots. -/
def segments (name : String) : List String :=
  (name.toList.splitOn '.').map String.ofList

/-- The client's names for headers. -/
def clientHeaders : List String :=
  headers.map Prod.fst

/-- The segments of a name hold its characters and no dots. -/
theorem mem_of_mem_splitOn {name segment : List Char} (hsegment : segment ∈ name.splitOn '.') :
    ∀ c ∈ segment, c ∈ name ∧ c ≠ '.' := by
  induction name generalizing segment with
  | nil => simp_all
  | cons d name ih =>
    rw [List.splitOn_cons_eq_if_modifyHead] at hsegment
    split at hsegment
    next =>
      rcases List.mem_cons.mp hsegment with rfl | hmem
      · simp
      · intro c hc
        exact ⟨List.mem_cons_of_mem d (ih hmem c hc).1, (ih hmem c hc).2⟩
    next hd =>
      cases hsplit : name.splitOn '.' with
      | nil => exact absurd hsplit (List.splitOn_ne_nil '.' name)
      | cons first more =>
        rw [hsplit, List.modifyHead_cons, List.mem_cons] at hsegment
        have hin : ∀ s ∈ first :: more, ∀ c ∈ s, c ∈ name ∧ c ≠ '.' :=
          fun s hs => ih (hsplit ▸ hs)
        rcases hsegment with rfl | hmem
        · intro c hc
          rcases List.mem_cons.mp hc with rfl | hc
          · exact ⟨List.mem_cons_self, by simpa using hd⟩
          · have := hin first List.mem_cons_self c hc
            exact ⟨List.mem_cons_of_mem d this.1, this.2⟩
        · intro c hc
          have := hin segment (List.mem_cons_of_mem first hmem) c hc
          exact ⟨List.mem_cons_of_mem d this.1, this.2⟩

/-- The segments of an identifier are words. -/
theorem isWordChar_of_mem_splitOn {name segment : List Char}
    (hname : ∀ c ∈ name, Filter.continuesWord c = true) (hsegment : segment ∈ name.splitOn '.') :
    ∀ c ∈ segment, isWordChar c = true := by
  intro c hc
  obtain ⟨hmem, hdot⟩ := mem_of_mem_splitOn hsegment c hc
  simpa [continuesWord_eq, hdot] using hname c hmem

/-- Words with dots between them are replaced word by word. -/
theorem translateFrom_segments (inWord : Bool) (first : List Char) (more : List (List Char))
    (hwords : ∀ word ∈ first :: more, ∀ c ∈ word, isWordChar c = true) {rest : List Char}
    (hrest : rest.head?.any isWordChar = false) :
    translateFrom inWord (['.'].intercalate (first :: more) ++ rest) =
      (translateFrom false rest).map
        (['.'].intercalate (renameSegments inWord (first :: more)) ++ ·) := by
  induction more generalizing inWord first with
  | nil =>
    have hfirst := hwords first List.mem_cons_self
    simpa [renameSegments] using translateFrom_word inWord hfirst hrest
  | cons second more ih =>
    have hfirst := hwords first List.mem_cons_self
    have hdot : ('.' :: (['.'].intercalate (second :: more) ++ rest)).head?.any isWordChar = false :=
      show isWordChar '.' = false by decide
    have hlater := ih false second fun word hword => hwords word (List.mem_cons_of_mem first hword)
    rw [List.intercalate_cons_cons, List.append_assoc, List.append_assoc, List.singleton_append,
      translateFrom_word inWord hfirst hdot, translateFrom_other false (by decide) (by decide), hlater]
    simp [renameSegments, Function.comp_def]

/-- An identifier is renamed as a whole where it ends. -/
theorem translateFrom_name (inWord : Bool) {name rest : List Char}
    (hname : ∀ c ∈ name, Filter.continuesWord c = true)
    (hrest : rest.head?.any isWordChar = false) :
    translateFrom inWord (name ++ rest) =
      (translateFrom false rest).map (renameChars inWord name ++ ·) := by
  have hwords : ∀ word ∈ name.splitOn '.', ∀ c ∈ word, isWordChar c = true :=
    fun word hword => isWordChar_of_mem_splitOn hname hword
  have hjoin : ['.'].intercalate (name.splitOn '.') = name := List.intercalate_splitOn '.'
  unfold renameChars
  cases hsplit : name.splitOn '.' with
  | nil => exact absurd hsplit (List.splitOn_ne_nil '.' name)
  | cons first more =>
    rw [hsplit] at hwords hjoin
    have hall := translateFrom_segments inWord first more hwords hrest
    rwa [hjoin] at hall

/-- A renamed identifier begins as before, or with the first letter of the broker's names. -/
theorem head?_renameChars (inWord : Bool) {name : List Char}
    (hname : ∀ c ∈ name, Filter.continuesWord c = true) :
    (renameChars inWord name).head? = name.head? ∨
      (name.head? = some 'J' ∧ (renameChars inWord name).head? = some 'A') := by
  have halone : translateFrom inWord name = some (renameChars inWord name) := by
    have hname' := translateFrom_name inWord hname (show [].head?.any isWordChar = false from rfl)
    simpa [translateFrom_nil] using hname'
  exact head?_translateFrom halone

/-- Joining keeps every character within a class that holds the dot. -/
theorem forall_mem_intercalate {p : Char → Bool} (hdot : p '.' = true) {parts : List (List Char)}
    (hparts : ∀ part ∈ parts, ∀ c ∈ part, p c = true) :
    ∀ c ∈ ['.'].intercalate parts, p c = true := by
  induction parts with
  | nil => simp
  | cons first more ih =>
    obtain ⟨hfirst, hmore⟩ := List.forall_mem_cons.mp hparts
    cases more with
    | nil => simpa using hfirst
    | cons second more =>
      rw [List.intercalate_cons_cons]
      intro c hc
      simp only [List.mem_append, List.mem_singleton] at hc
      rcases hc with (hc | rfl) | hc
      · exact hfirst c hc
      · exact hdot
      · exact ih hmore c hc

/-- A renamed identifier is made of the characters of identifiers. -/
theorem continuesWord_of_mem_renameChars (inWord : Bool) {name : List Char}
    (hname : ∀ c ∈ name, Filter.continuesWord c = true) :
    ∀ c ∈ renameChars inWord name, Filter.continuesWord c = true := by
  have hword : ∀ {word : List Char}, (∀ c ∈ word, isWordChar c = true) →
      ∀ c ∈ word, Filter.continuesWord c = true := by
    intro word hword c hc
    rw [continuesWord_eq, hword c hc, Bool.true_or]
  have hsegments : ∀ word ∈ name.splitOn '.', ∀ c ∈ word, isWordChar c = true :=
    fun word hmem => isWordChar_of_mem_splitOn hname hmem
  refine forall_mem_intercalate (by decide) ?_
  cases hsplit : name.splitOn '.' with
  | nil => simp [renameSegments]
  | cons first more =>
    rw [hsplit] at hsegments
    obtain ⟨hfirst, hmore⟩ := List.forall_mem_cons.mp hsegments
    refine List.forall_mem_cons.mpr ⟨?_, ?_⟩
    · cases inWord with
      | true => exact hword hfirst
      | false => exact hword (isWordChar_of_mem_replaced hfirst)
    · intro word hmem
      obtain ⟨segment, hsegment, rfl⟩ := List.mem_map.mp hmem
      exact hword (isWordChar_of_mem_replaced (hmore segment hsegment))

/-- A name without dots is renamed as a single word. -/
theorem renameChars_of_not_mem (inWord : Bool) {name : List Char} (hdot : '.' ∉ name) :
    renameChars inWord name = if inWord then name else replaced headers name := by
  simp [renameChars, renameSegments, List.splitOn_eq_singleton hdot]

/-- A name with dots keeps them. -/
theorem mem_renameChars (inWord : Bool) {name : List Char} (hdot : '.' ∈ name) :
    '.' ∈ renameChars inWord name := by
  unfold renameChars
  match hsplit : name.splitOn '.' with
  | [] => exact absurd hsplit (List.splitOn_ne_nil '.' name)
  | [only] =>
    have hjoin : ['.'].intercalate (name.splitOn '.') = name := List.intercalate_splitOn '.'
    rw [hsplit, List.intercalate_singleton] at hjoin
    subst hjoin
    exact absurd rfl (mem_of_mem_splitOn (hsplit ▸ List.mem_singleton_self _) '.' hdot).2
  | first :: second :: more =>
    simp [renameSegments, List.intercalate_cons_cons]

/-! ### Keywords -/

/-- The words that are no identifiers. -/
def keywords : List String :=
  ["AND", "OR", "NOT", "IS", "NULL", "TRUE", "FALSE"]

/-- A word is an identifier unless it is a keyword in some case. -/
theorem ofWord_eq_ident {word : String} (h : Text.upper word ∉ keywords) :
    Filter.Token.ofWord word = .ident word := by
  simp only [keywords, List.mem_cons, List.not_mem_nil, or_false, not_or] at h
  unfold Filter.Token.ofWord
  split <;> simp_all

/-- No keyword has a dot. -/
theorem upper_not_mem_keywords_of_dot {word : String} (hdot : '.' ∈ word.toList) :
    Text.upper word ∉ keywords := by
  have hupper : '.' ∈ (Text.upper word).toList := by
    rw [Text.upper, String.toList_ofList]
    exact List.mem_map.mpr ⟨'.', hdot, by decide⟩
  intro hmem
  have hnone : ∀ keyword ∈ keywords, '.' ∉ keyword.toList := by decide
  exact hnone _ hmem hupper

/-- No header has the name of a keyword. -/
theorem upper_not_mem_keywords_of_mem_headers : ∀ entry ∈ headers,
    Text.upper entry.1 ∉ keywords ∧ Text.upper entry.2 ∉ keywords := by
  decide

/-- A renamed word is an identifier if it was one before, and a keyword is not renamed. -/
theorem ofWord_renameChars (inWord : Bool) (word : List Char) :
    renameChars inWord word = word ∨
      (Filter.Token.ofWord (String.ofList word) = .ident (String.ofList word) ∧
        Filter.Token.ofWord (String.ofList (renameChars inWord word)) =
          .ident (String.ofList (renameChars inWord word))) := by
  by_cases hdot : '.' ∈ word
  · right
    refine ⟨ofWord_eq_ident (upper_not_mem_keywords_of_dot ?_),
      ofWord_eq_ident (upper_not_mem_keywords_of_dot ?_)⟩
    · rwa [String.toList_ofList]
    · rw [String.toList_ofList]
      exact mem_renameChars inWord hdot
  · rw [renameChars_of_not_mem inWord hdot]
    cases inWord with
    | true => exact Or.inl rfl
    | false =>
      rcases replaced_cases headers word with h | ⟨entry, hentry, rfl, h⟩
      · exact Or.inl h
      · have hkeywords := upper_not_mem_keywords_of_mem_headers entry hentry
        right
        rw [if_neg (by simp), h, String.ofList_toList, String.ofList_toList]
        exact ⟨ofWord_eq_ident hkeywords.1, ofWord_eq_ident hkeywords.2⟩

end BrokerAdmin.Selector
