import BrokerAdmin.Filter.Token
import BrokerAdmin.Proofs.Text.Classes
import Mathlib.Data.List.TakeWhile

/-!
# Scanning, token by token

What the scanner makes of the characters at the front of a text: one equation for each kind of token,
in which the token's own characters stand apart from those that follow. A run of characters ends where
the next character does not belong to its class.
-/

namespace BrokerAdmin.Filter

/-! ### Longest runs -/

/-- A longest run is taken as it is when the next character does not belong to it. -/
theorem takeWhile_append_of_stop {p : Char → Bool} {run rest : List Char}
    (hrun : ∀ c ∈ run, p c = true) (hrest : rest.head?.any p = false) :
    (run ++ rest).takeWhile p = run := by
  rw [List.takeWhile_append_of_pos hrun]
  cases rest with
  | nil => simp
  | cons c rest =>
    have hc : p c = false := by simpa using hrest
    simp [hc]

/-- What follows a longest run is left as it is. -/
theorem dropWhile_append_of_stop {p : Char → Bool} {run rest : List Char}
    (hrun : ∀ c ∈ run, p c = true) (hrest : rest.head?.any p = false) :
    (run ++ rest).dropWhile p = rest := by
  rw [List.dropWhile_append_of_pos hrun]
  cases rest with
  | nil => rfl
  | cons c rest =>
    have hc : p c = false := by simpa using hrest
    simp [hc]

/-- What is left after a longest run does not go on with it. -/
theorem head?_dropWhile_any (p : Char → Bool) (chars : List Char) :
    (chars.dropWhile p).head?.any p = false := by
  induction chars with
  | nil => rfl
  | cons c rest ih =>
    rw [List.dropWhile_cons]
    split
    · exact ih
    · simpa using ‹¬ p c = true›

/-- Every text splits into a longest run of a class and a rest that does not go on with it. -/
theorem exists_run (p : Char → Bool) (chars : List Char) :
    ∃ run rest, chars = run ++ rest ∧ (∀ c ∈ run, p c = true) ∧ rest.head?.any p = false :=
  ⟨chars.takeWhile p, chars.dropWhile p, List.takeWhile_append_dropWhile.symm,
    fun _ => List.mem_takeWhile_imp, head?_dropWhile_any p chars⟩

/-! ### The first token -/

/-- Characters that begin no comparison. -/
theorem comparison?_eq_none {c : Char} (h : c ∉ ['=', '<', '>', '!']) (rest : List Char) :
    comparison? c rest = none := by
  simp only [List.mem_cons, List.not_mem_nil, or_false, not_or] at h
  obtain ⟨heq, hlt, hgt, hne⟩ := h
  unfold comparison?
  split <;> simp_all

/-- A comparison begins with one of four characters. -/
theorem mem_of_comparison? {c : Char} {rest more : List Char} {op : Comparison}
    (h : comparison? c rest = some (op, more)) : c ∈ ['=', '<', '>', '!'] := by
  by_contra hc
  rw [comparison?_eq_none hc] at h
  contradiction

/-- A comparison takes its own sign, and takes it before any other rest that does not differ in whether
it would go on with the sign. -/
theorem comparison?_spec {c : Char} {rest more : List Char} {op : Comparison}
    (h : comparison? c rest = some (op, more)) :
    ∃ sign, rest = sign ++ more ∧ (∀ d ∈ sign, d ∈ ['=', '>']) ∧
      ∀ later : List Char, later.head?.any (· == '>') = more.head?.any (· == '>') →
        later.head?.any (· == '=') = more.head?.any (· == '=') →
          comparison? c (sign ++ later) = some (op, later) := by
  unfold comparison? at h
  split at h
  case h_6 hne hle =>
    obtain ⟨rfl, rfl⟩ := Prod.mk.inj (Option.some.inj h)
    refine ⟨[], rfl, by simp, fun later hgt heq => ?_⟩
    have hlater : later.head?.any (· == '>') = false ∧ later.head?.any (· == '=') = false := by
      rw [hgt, heq]
      cases rest with
      | nil => simp
      | cons d rest => simpa using ⟨fun hd => hne rest (by rw [hd]), fun hd => hle rest (by rw [hd])⟩
    cases later <;> simp_all [comparison?]
  case h_7 hge =>
    obtain ⟨rfl, rfl⟩ := Prod.mk.inj (Option.some.inj h)
    refine ⟨[], rfl, by simp, fun later _ heq => ?_⟩
    have hlater : later.head?.any (· == '=') = false := by
      rw [heq]
      cases rest with
      | nil => simp
      | cons d rest => simpa using fun hd => hge rest (by rw [hd])
    cases later <;> simp_all [comparison?]
  case h_1 =>
    obtain ⟨rfl, rfl⟩ := Prod.mk.inj (Option.some.inj h)
    exact ⟨[], rfl, by simp, fun later _ _ => rfl⟩
  case h_2 =>
    obtain ⟨rfl, rfl⟩ := Prod.mk.inj (Option.some.inj h)
    exact ⟨['>'], rfl, by simp, fun later _ _ => rfl⟩
  case h_3 | h_4 | h_5 =>
    obtain ⟨rfl, rfl⟩ := Prod.mk.inj (Option.some.inj h)
    exact ⟨['='], rfl, by simp, fun later _ _ => rfl⟩
  case h_8 => contradiction

/-- Only an exclamation mark can be the first half of a sign without being one itself. -/
theorem eq_of_comparison?_eq_none {c : Char} {rest : List Char} (hc : c ∈ ['=', '<', '>', '!'])
    (h : comparison? c rest = none) : c = '!' ∧ rest.head?.any (· == '=') = false := by
  unfold comparison? at h
  split at h <;> try contradiction
  next hne hge hlt hgt heq =>
    simp only [List.mem_cons, List.not_mem_nil, or_false] at hc
    rcases hc with rfl | rfl | rfl | rfl <;> try contradiction
    cases rest <;> simp_all

/-- A literal is read up to its closing quote. -/
theorem firstToken_text {rest more body : List Char} (h : Text.literal? rest = some (body, more)) :
    firstToken '\'' rest = .ok (.text (String.ofList body), more) := by
  simp [firstToken, h]

/-- A literal without a closing quote is no token. -/
theorem firstToken_unterminated {rest : List Char} (h : Text.literal? rest = none) :
    firstToken '\'' rest = .error .unterminatedText := by
  simp [firstToken, h]

/-- A comparison is read before anything else that is not a parenthesis or a literal. -/
theorem firstToken_comparison {c : Char} {rest more : List Char} {op : Comparison}
    (h : comparison? c rest = some (op, more)) :
    firstToken c rest = .ok (.comparison op, more) := by
  have hc := mem_of_comparison? h
  have hleft : c ≠ '(' := fun heq => by subst heq; revert hc; decide
  have hright : c ≠ ')' := fun heq => by subst heq; revert hc; decide
  have hquote : c ≠ '\'' := fun heq => by subst heq; revert hc; decide
  simp [firstToken, hleft, hright, hquote, h]

/-- An exclamation mark without an equals sign is no token. -/
theorem firstToken_exclamation {rest : List Char} (h : rest.head?.any (· == '=') = false) :
    firstToken '!' rest = .error (.unexpected '!') := by
  have hcomparison : comparison? '!' rest = none := by
    cases rest with
    | nil => rfl
    | cons c rest =>
      have hc : c ≠ '=' := by simpa using h
      simp [comparison?, hc]
  have hword : startsWord '!' = false := by decide
  simp [firstToken, hcomparison, startsNumber, hword]

/-- The characters at which the first token is told without looking for numbers or words. -/
def isSign (c : Char) : Bool :=
  ['(', ')', '\'', '=', '<', '>', '!'].contains c

/-- What is neither a parenthesis, a literal nor a comparison is a number, a word or unexpected. -/
theorem firstToken_of_not_isSign {c : Char} (hc : isSign c = false) (rest : List Char) :
    firstToken c rest =
      if startsNumber c rest then
        match Binary64.ofText? (c :: rest.takeWhile continuesNumber) with
        | some value => .ok (.number value, rest.dropWhile continuesNumber)
        | none => .error (.malformedNumber (String.ofList (c :: rest.takeWhile continuesNumber)))
      else if startsWord c then
        .ok (.ofWord (String.ofList (c :: rest.takeWhile continuesWord)),
          rest.dropWhile continuesWord)
      else .error (.unexpected c) := by
  simp only [isSign, List.contains_eq_mem, decide_eq_false_iff_not, List.mem_cons, List.not_mem_nil,
    or_false, not_or] at hc
  obtain ⟨hleft, hright, hquote, hsigns⟩ := hc
  have hnone : comparison? c rest = none := comparison?_eq_none (by simp [hsigns]) rest
  refine (if_neg hleft).trans ((if_neg hright).trans ((if_neg hquote).trans ?_))
  cases hcomparison : comparison? c rest with
  | none => rfl
  | some read =>
    rw [hnone] at hcomparison
    contradiction

/-- What begins a number is a digit or a minus sign. -/
theorem isDigit_or_eq_of_startsNumber {c : Char} {rest : List Char}
    (h : startsNumber c rest = true) : c.isDigit = true ∨ c = '-' := by
  simp only [startsNumber, Bool.or_eq_true, Bool.and_eq_true, beq_iff_eq] at h
  exact h.imp_right And.left

/-- No digit is a sign. -/
theorem isSign_of_isDigit {c : Char} (hc : c.isDigit = true) : isSign c = false := by
  have hcode := (Text.isDigit_iff c).mp hc
  rw [Bool.eq_false_iff]
  intro hsign
  simp only [isSign, List.contains_eq_mem, decide_eq_true_eq, List.mem_cons, List.not_mem_nil,
    or_false] at hsign
  rcases hsign with rfl | rfl | rfl | rfl | rfl | rfl | rfl <;> revert hcode <;> decide

/-- A number is told from its first character, and the digits and dots that follow go into it. -/
theorem firstToken_number {c : Char} {run rest : List Char}
    (hstart : startsNumber c (run ++ rest) = true) (hrun : ∀ d ∈ run, continuesNumber d = true)
    (hrest : rest.head?.any continuesNumber = false) :
    firstToken c (run ++ rest) =
      match Binary64.ofText? (c :: run) with
      | some value => .ok (.number value, rest)
      | none => .error (.malformedNumber (String.ofList (c :: run))) := by
  have hsign : isSign c = false := by
    rcases isDigit_or_eq_of_startsNumber hstart with hdigit | rfl
    · exact isSign_of_isDigit hdigit
    · decide
  rw [firstToken_of_not_isSign hsign, if_pos hstart, takeWhile_append_of_stop hrun hrest,
    dropWhile_append_of_stop hrun hrest]

/-- No sign belongs to a word. -/
theorem isWordChar_of_isSign {c : Char} (hc : isSign c = true) : Selector.isWordChar c = false := by
  simp only [isSign, List.contains_eq_mem, decide_eq_true_eq, List.mem_cons, List.not_mem_nil,
    or_false] at hc
  rcases hc with rfl | rfl | rfl | rfl | rfl | rfl | rfl <;> decide

/-- No sign is blank. -/
theorem isBlank_of_isSign {c : Char} (hc : isSign c = true) : Text.isBlank c = false := by
  simp only [isSign, List.contains_eq_mem, decide_eq_true_eq, List.mem_cons, List.not_mem_nil,
    or_false] at hc
  rcases hc with rfl | rfl | rfl | rfl | rfl | rfl | rfl <;> decide

/-- An identifier does not begin as a number does. -/
theorem startsNumber_of_startsWord {c : Char} (hc : startsWord c = true) (rest : List Char) :
    startsNumber c rest = false := by
  rw [Bool.eq_false_iff]
  intro hnumber
  rcases isDigit_or_eq_of_startsNumber hnumber with hdigit | rfl
  · rw [Selector.startsWord_of_isDigit hdigit] at hc
    contradiction
  · revert hc
    decide

/-- A word is taken as long as it goes on. -/
theorem firstToken_word {c : Char} {run rest : List Char} (hc : startsWord c = true)
    (hrun : ∀ d ∈ run, continuesWord d = true) (hrest : rest.head?.any continuesWord = false) :
    firstToken c (run ++ rest) = .ok (.ofWord (String.ofList (c :: run)), rest) := by
  have hsign : isSign c = false := by
    rw [Bool.eq_false_iff]
    intro hsign
    have := isWordChar_of_isSign hsign
    rw [Selector.isWordChar_of_startsWord hc] at this
    contradiction
  rw [firstToken_of_not_isSign hsign, startsNumber_of_startsWord hc, if_neg (by simp), if_pos hc,
    takeWhile_append_of_stop hrun hrest, dropWhile_append_of_stop hrun hrest]

/-! ### The whole text -/

/-- Nothing is scanned from an empty text. -/
theorem scan_nil : scan [] = .ok [] := by
  rw [scan]

/-- Blank characters in front are passed over. -/
theorem scan_blank {c : Char} (hc : Text.isBlank c = true) (rest : List Char) :
    scan (c :: rest) = scan rest := by
  rw [scan, if_pos hc]

/-- The first token comes before the tokens of what follows it. -/
theorem scan_token {c : Char} {rest more : List Char} {token : Token}
    (hc : Text.isBlank c = false) (h : firstToken c rest = .ok (token, more)) :
    scan (c :: rest) = (scan more).map (token :: ·) := by
  rw [scan, if_neg (by simp [hc])]
  split
  next heq =>
    rw [h] at heq
    cases heq
    rfl
  next heq =>
    rw [h] at heq
    contradiction

/-- What is no token stops the scan. -/
theorem scan_error {c : Char} {rest : List Char} {e : Error} (hc : Text.isBlank c = false)
    (h : firstToken c rest = .error e) : scan (c :: rest) = .error e := by
  rw [scan, if_neg (by simp [hc])]
  split
  next heq =>
    rw [h] at heq
    contradiction
  next heq =>
    rw [h] at heq
    cases heq
    rfl

/-- A run of blank characters in front is passed over. -/
theorem scan_blanks {blanks : List Char} (h : ∀ c ∈ blanks, Text.isBlank c = true)
    (rest : List Char) : scan (blanks ++ rest) = scan rest := by
  induction blanks with
  | nil => rfl
  | cons c blanks ih =>
    obtain ⟨hc, hblanks⟩ := List.forall_mem_cons.mp h
    rw [List.cons_append, scan_blank hc, ih hblanks]

/-- A text of blank characters has no tokens. -/
theorem scan_of_all_isBlank {chars : List Char} (h : ∀ c ∈ chars, Text.isBlank c = true) :
    scan chars = .ok [] := by
  have hscan := scan_blanks h []
  rwa [List.append_nil, scan_nil] at hscan

/-- A text with tokens is not blank. -/
theorem isBlankText_of_scan {text : String} {tokens : List Token} (h : scan text.toList = .ok tokens)
    (htokens : tokens ≠ []) : Text.isBlankText text = false := by
  rw [Bool.eq_false_iff]
  intro hblank
  rw [scan_of_all_isBlank (List.all_eq_true.mp hblank)] at h
  exact htokens (Except.ok.inj h).symm

end BrokerAdmin.Filter
