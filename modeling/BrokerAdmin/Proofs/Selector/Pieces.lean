import BrokerAdmin.Proofs.Filter.Scanning
import BrokerAdmin.Proofs.Text.SingleQuoted
import BrokerAdmin.Subscription.Selector

/-!
# The translation of a selector, piece by piece

Every selector is put together of pieces, each of which ends where the next begins, and possibly of a
literal at its end that is not closed. `piecewise` is the induction on them, and a piece is translated
whatever follows it as long as it ends there.

What translation makes of the characters at the front of a selector is told by one equation for each kind
of piece. A number may run into the word behind it (`5AND`), and a word that has begun with a digit is never
replaced; `translateFrom` therefore says whether the characters in front belong to the same word.
-/

namespace BrokerAdmin.Selector

/-- The translation of what follows; where it goes on with a word that is not replaced, that word stays
as it is. -/
def translateFrom (inWord : Bool) (chars : List Char) : Option (List Char) :=
  if inWord then
    (translateChars (chars.dropWhile isWordChar)).map (chars.takeWhile isWordChar ++ ·)
  else translateChars chars

/-! ### The tables -/

/-- A text stays, or it stands in the table and its replacement beside it. -/
theorem replaced_cases (table : List (String × String)) (chars : List Char) :
    replaced table chars = chars ∨
      ∃ entry ∈ table, chars = entry.1.toList ∧ replaced table chars = entry.2.toList := by
  unfold replaced
  cases h : table.lookup (String.ofList chars) with
  | none => exact Or.inl rfl
  | some image =>
    obtain ⟨front, back, rfl, -⟩ := List.lookup_eq_some_iff.mp h
    exact Or.inr ⟨(String.ofList chars, image), by simp, String.toList_ofList.symm, rfl⟩

/-- The client's names for headers begin alike, and so do the broker's. -/
theorem head?_of_mem_headers :
    ∀ entry ∈ headers, entry.1.toList.head? = some 'J' ∧ entry.2.toList.head? = some 'A' := by
  decide

/-- The broker's names for headers are words. -/
theorem isWordChar_of_mem_headers :
    ∀ entry ∈ headers, ∀ c ∈ entry.2.toList, isWordChar c = true := by
  have hall : headers.all (fun entry => entry.2.toList.all isWordChar) = true := by decide
  intro entry hentry
  exact List.all_eq_true.mp (List.all_eq_true.mp hall entry hentry)

/-- A word that does not begin like the client's names for headers stays. -/
theorem replaced_headers_of_ne {c : Char} (hc : c ≠ 'J') (tail : List Char) :
    replaced headers (c :: tail) = c :: tail := by
  rcases replaced_cases headers (c :: tail) with h | ⟨entry, hentry, hchars, -⟩
  · exact h
  · have hhead := (head?_of_mem_headers entry hentry).1
    rw [← hchars] at hhead
    exact absurd (Option.some.inj hhead) hc

/-- What takes the place of a word is a word. -/
theorem isWordChar_of_mem_replaced {word : List Char} (hword : ∀ c ∈ word, isWordChar c = true) :
    ∀ c ∈ replaced headers word, isWordChar c = true := by
  rcases replaced_cases headers word with h | ⟨entry, hentry, -, h⟩
  · rw [h]
    exact hword
  · rw [h]
    exact isWordChar_of_mem_headers entry hentry

/-- What takes the place of a word begins as it does, or with the first letter of the broker's names. -/
theorem head?_replaced (word : List Char) :
    (replaced headers word).head? = word.head? ∨
      (word.head? = some 'J' ∧ (replaced headers word).head? = some 'A') := by
  rcases replaced_cases headers word with h | ⟨entry, hentry, rfl, h⟩
  · rw [h]
    exact Or.inl rfl
  · rw [h]
    exact Or.inr (head?_of_mem_headers entry hentry)

/-! ### Pieces -/

/-- A piece that can be cut from a selector. -/
def Piece.Proper : Piece → Prop
  | .literal _ => True
  | .word chars => chars ≠ [] ∧ ∀ c ∈ chars, isWordChar c = true
  | .other c => c ≠ '\'' ∧ isWordChar c = false

/-- A piece ends before a rest with which neither a literal nor a word goes on. -/
def Piece.EndsBefore (rest : List Char) : Piece → Prop
  | .literal _ => rest.head? ≠ some '\''
  | .word _ => rest.head?.any isWordChar = false
  | .other _ => True

/-- No quote belongs to a word. -/
theorem ne_quote_of_isWordChar {c : Char} (hc : isWordChar c = true) : c ≠ '\'' := by
  intro h
  subst h
  revert hc
  decide

/-- A proper piece is cut off where it ends. -/
theorem pieces_written_append {p : Piece} (hproper : p.Proper) {rest : List Char}
    (hends : p.EndsBefore rest) : pieces (p.written ++ rest) = (pieces rest).map (p :: ·) := by
  cases p with
  | literal body =>
    have hread : Text.literal? (Text.doubled body ++ '\'' :: rest) = some (body, rest) :=
      Text.literal?_doubled body hends
    rw [Piece.written, Text.enclosed, List.cons_append, List.cons_append, List.append_assoc,
      List.singleton_append, pieces, if_pos rfl]
    split
    next hnone => simp [hread] at hnone
    next hsome =>
      rw [hread] at hsome
      cases hsome
      rfl
  | word chars =>
    obtain ⟨hne, hchars⟩ := hproper
    cases chars with
    | nil => contradiction
    | cons c tail =>
      obtain ⟨hc, htail⟩ := List.forall_mem_cons.mp hchars
      rw [Piece.written, List.cons_append, pieces, if_neg (ne_quote_of_isWordChar hc), if_pos hc,
        Filter.takeWhile_append_of_stop htail hends, Filter.dropWhile_append_of_stop htail hends]
  | other c =>
    obtain ⟨hquote, hword⟩ := hproper
    rw [Piece.written, List.singleton_append, pieces, if_neg hquote, if_neg (by simp [hword])]

/-- A selector is empty, or a proper piece that ends before another selector, or a literal that is not
closed. -/
@[elab_as_elim]
theorem piecewise {motive : List Char → Prop} (nil : motive [])
    (piece : ∀ (p : Piece) (rest : List Char), p.Proper → p.EndsBefore rest → motive rest →
      motive (p.written ++ rest))
    (unterminated : ∀ rest, Text.literal? rest = none → motive ('\'' :: rest))
    (chars : List Char) : motive chars := by
  induction chars using pieces.induct with
  | case1 => exact nil
  | case2 rest hnone => exact unterminated rest hnone
  | case3 rest body more hread _ ih =>
    have hpiece := piece (.literal body) more trivial (Text.head?_ne_of_literal? hread) ih
    rw [Text.eq_of_literal? hread]
    simpa [Piece.written, Text.enclosed] using hpiece
  | case4 c rest _ hword _ ih =>
    have hchars : ∀ d ∈ c :: rest.takeWhile isWordChar, isWordChar d = true :=
      List.forall_mem_cons.mpr ⟨hword, fun _ => List.mem_takeWhile_imp⟩
    have hpiece := piece (.word (c :: rest.takeWhile isWordChar)) (rest.dropWhile isWordChar)
      ⟨List.cons_ne_nil _ _, hchars⟩ (Filter.head?_dropWhile_any isWordChar rest) ih
    simpa [Piece.written, List.takeWhile_append_dropWhile] using hpiece
  | case5 c rest hquote hword ih =>
    exact piece (.other c) rest ⟨hquote, by simpa using hword⟩ trivial ih

/-- A proper piece is translated as a whole. -/
theorem translateChars_written_append {p : Piece} (hproper : p.Proper) {rest : List Char}
    (hends : p.EndsBefore rest) :
    translateChars (p.written ++ rest) = (translateChars rest).map (p.translate.written ++ ·) := by
  simp only [translateChars, pieces_written_append hproper hends, Option.map_map]
  rfl

/-! ### What begins with a piece -/

/-- A selector without characters has none after translation. -/
theorem translateFrom_nil (inWord : Bool) : translateFrom inWord [] = some [] := by
  cases inWord <;> simp [translateFrom, translateChars, pieces]

/-- Where no word goes on it does not matter whether there was one. -/
theorem translateFrom_eq_of_stop {rest : List Char} (hrest : rest.head?.any isWordChar = false)
    (inWord : Bool) : translateFrom inWord rest = translateFrom false rest := by
  have hnone : ∀ c ∈ ([] : List Char), isWordChar c = true := by simp
  have htake : rest.takeWhile isWordChar = [] := Filter.takeWhile_append_of_stop hnone hrest
  have hdrop : rest.dropWhile isWordChar = rest := Filter.dropWhile_append_of_stop hnone hrest
  cases inWord <;> simp [translateFrom, htake, hdrop]

/-- A character outside words and literals stays as it is. -/
theorem translateFrom_other (inWord : Bool) {c : Char} (hquote : c ≠ '\'')
    (hword : isWordChar c = false) (rest : List Char) :
    translateFrom inWord (c :: rest) = (translateFrom false rest).map (c :: ·) := by
  rw [translateFrom_eq_of_stop (by simpa using hword)]
  exact translateChars_written_append (p := .other c) ⟨hquote, hword⟩ trivial

/-- Characters outside words and literals stay as they are. -/
theorem translateFrom_others {signs : List Char}
    (hsigns : ∀ c ∈ signs, c ≠ '\'' ∧ isWordChar c = false) (rest : List Char) :
    translateFrom false (signs ++ rest) = (translateFrom false rest).map (signs ++ ·) := by
  induction signs with
  | nil => simp
  | cons c signs ih =>
    obtain ⟨⟨hquote, hword⟩, hsigns⟩ := List.forall_mem_cons.mp hsigns
    rw [List.cons_append, translateFrom_other false hquote hword, ih hsigns]
    simp [Function.comp_def]

/-- A literal is replaced as a whole, where no quote follows it. -/
theorem translateFrom_enclosed (inWord : Bool) (body : List Char) {rest : List Char}
    (hrest : rest.head? ≠ some '\'') :
    translateFrom inWord (Text.enclosed body ++ rest) =
      (translateFrom false rest).map (Text.enclosed (replaced deliveryModes body) ++ ·) := by
  have hquote : isWordChar '\'' = false := by decide
  rw [translateFrom_eq_of_stop (by simpa [Text.enclosed] using hquote)]
  exact translateChars_written_append (p := .literal body) trivial hrest

/-- A literal that has been read is replaced as a whole. -/
theorem translateFrom_literal (inWord : Bool) {rest body more : List Char}
    (h : Text.literal? rest = some (body, more)) :
    translateFrom inWord ('\'' :: rest) =
      (translateFrom false more).map (Text.enclosed (replaced deliveryModes body) ++ ·) := by
  have hwritten : '\'' :: rest = Text.enclosed body ++ more := by
    rw [Text.eq_of_literal? h]
    simp [Text.enclosed]
  rw [hwritten]
  exact translateFrom_enclosed inWord body (Text.head?_ne_of_literal? h)

/-- A selector with a literal that is not closed has no translation. -/
theorem translateFrom_unterminated (inWord : Bool) {rest : List Char}
    (h : Text.literal? rest = none) : translateFrom inWord ('\'' :: rest) = none := by
  have hquote : isWordChar '\'' = false := by decide
  have hpieces : pieces ('\'' :: rest) = none := by
    rw [pieces, if_pos rfl]
    split
    next => rfl
    next hsome => simp [h] at hsome
  rw [translateFrom_eq_of_stop (by simpa using hquote)]
  exact Option.map_eq_none_iff.mpr hpieces

/-- A word is replaced as a whole, unless it goes on with one that is not. -/
theorem translateFrom_word (inWord : Bool) {word rest : List Char}
    (hword : ∀ c ∈ word, isWordChar c = true) (hrest : rest.head?.any isWordChar = false) :
    translateFrom inWord (word ++ rest) =
      (translateFrom false rest).map ((if inWord then word else replaced headers word) ++ ·) := by
  cases word with
  | nil =>
    have hnil : replaced headers [] = [] := by decide
    rw [List.nil_append, translateFrom_eq_of_stop hrest]
    cases inWord <;> simp [hnil]
  | cons c tail =>
    have htake := Filter.takeWhile_append_of_stop hword hrest
    have hdrop := Filter.dropWhile_append_of_stop hword hrest
    cases inWord with
    | true => simp only [translateFrom, htake, hdrop, if_true, Bool.false_eq_true, if_false]
    | false =>
      exact translateChars_written_append (p := .word (c :: tail)) ⟨List.cons_ne_nil c tail, hword⟩ hrest

/-- A character of a word that is not replaced stays, and the word goes on. -/
theorem translateFrom_of_ne (inWord : Bool) {c : Char} (hword : isWordChar c = true)
    (hc : inWord = true ∨ c ≠ 'J') (rest : List Char) :
    translateFrom inWord (c :: rest) = (translateFrom true rest).map (c :: ·) := by
  obtain ⟨run, rest, rfl, hrun, hrest⟩ := Filter.exists_run isWordChar rest
  have hstay : (if inWord then c :: run else replaced headers (c :: run)) = c :: run := by
    rcases hc with rfl | hc
    · rfl
    · cases inWord
      · exact replaced_headers_of_ne hc run
      · rfl
  have hchars : ∀ d ∈ c :: run, isWordChar d = true := List.forall_mem_cons.mpr ⟨hword, hrun⟩
  have hall := translateFrom_word inWord hchars hrest
  rw [List.cons_append] at hall
  rw [hall, hstay, translateFrom_word true hrun hrest]
  simp [Function.comp_def]

/-- A translation begins as the selector does, or with the first letter of the broker's names. -/
theorem head?_translateFrom {inWord : Bool} {chars out : List Char}
    (h : translateFrom inWord chars = some out) :
    out.head? = chars.head? ∨ (chars.head? = some 'J' ∧ out.head? = some 'A') := by
  cases chars with
  | nil =>
    rw [translateFrom_nil, Option.some.injEq] at h
    exact Or.inl (by rw [← h])
  | cons c rest =>
    by_cases hquote : c = '\''
    · subst hquote
      cases hliteral : Text.literal? rest with
      | none =>
        rw [translateFrom_unterminated inWord hliteral] at h
        contradiction
      | some literal =>
        rw [translateFrom_literal inWord hliteral] at h
        obtain ⟨later, -, rfl⟩ := Option.map_eq_some_iff.mp h
        exact Or.inl rfl
    · cases hword : isWordChar c with
      | false =>
        rw [translateFrom_other inWord hquote hword] at h
        obtain ⟨later, -, rfl⟩ := Option.map_eq_some_iff.mp h
        exact Or.inl rfl
      | true =>
        obtain ⟨run, rest, rfl, hrun, hrest⟩ := Filter.exists_run isWordChar rest
        have hall : ∀ d ∈ c :: run, isWordChar d = true := List.forall_mem_cons.mpr ⟨hword, hrun⟩
        rw [← List.cons_append, translateFrom_word inWord hall hrest] at h
        obtain ⟨later, -, rfl⟩ := Option.map_eq_some_iff.mp h
        cases inWord with
        | true => exact Or.inl rfl
        | false =>
          have hhead := head?_replaced (c :: run)
          cases himage : replaced headers (c :: run) with
          | nil => simp [himage] at hhead
          | cons d tail => simpa [himage] using hhead

/-- A class of characters that does not tell the two first letters apart meets a translation where it
meets the selector. -/
theorem head?_any_translateFrom {p : Char → Bool} (hp : p 'J' = p 'A') {inWord : Bool}
    {chars out : List Char} (h : translateFrom inWord chars = some out) :
    out.head?.any p = chars.head?.any p := by
  rcases head?_translateFrom h with heq | ⟨hchars, hout⟩
  · rw [heq]
  · rw [hchars, hout]
    exact hp.symm

/-- A translation is blank only where the selector is. -/
theorem all_isBlank_of_translateFrom {chars out : List Char} (h : translateFrom false chars = some out)
    (hout : ∀ d ∈ out, Text.isBlank d = true) : ∀ c ∈ chars, Text.isBlank c = true := by
  induction chars generalizing out with
  | nil => simp
  | cons c rest ih =>
    have hhead : out.head?.any Text.isBlank = Text.isBlank c := head?_any_translateFrom (by decide) h
    have hc : Text.isBlank c = true := by
      cases out with
      | nil => simpa using head?_translateFrom h
      | cons d later => simpa [← hhead] using hout d List.mem_cons_self
    have hquote : c ≠ '\'' := fun h => by subst h; revert hc; decide
    rw [translateFrom_other false hquote (isWordChar_of_isBlank hc)] at h
    obtain ⟨later, hlater, rfl⟩ := Option.map_eq_some_iff.mp h
    exact List.forall_mem_cons.mpr ⟨hc, ih hlater (List.forall_mem_cons.mp hout).2⟩

/-- The characters of numbers stay, and a number may end in the middle of a word. -/
theorem translateFrom_number (inWord : Bool) {run : List Char}
    (hrun : ∀ c ∈ run, c.isDigit = true ∨ c = '.' ∨ c = '-') :
    ∃ inWord', ∀ rest,
      translateFrom inWord (run ++ rest) = (translateFrom inWord' rest).map (run ++ ·) := by
  induction run generalizing inWord with
  | nil => exact ⟨inWord, by simp⟩
  | cons c run ih =>
    obtain ⟨hc, hrun⟩ := List.forall_mem_cons.mp hrun
    have hstep : ∃ next, ∀ rest,
        translateFrom inWord (c :: rest) = (translateFrom next rest).map (c :: ·) := by
      rcases hc with hdigit | rfl | rfl
      · have hne : c ≠ 'J' := fun h => by subst h; revert hdigit; decide
        exact ⟨true, translateFrom_of_ne inWord (isWordChar_of_isDigit hdigit) (Or.inr hne)⟩
      · exact ⟨false, translateFrom_other inWord (by decide) (by decide)⟩
      · exact ⟨false, translateFrom_other inWord (by decide) (by decide)⟩
    obtain ⟨next, hnext⟩ := hstep
    obtain ⟨inWord', hrest⟩ := ih next hrun
    refine ⟨inWord', fun rest => ?_⟩
    rw [List.cons_append, hnext, hrest]
    simp [Function.comp_def]

end BrokerAdmin.Selector
