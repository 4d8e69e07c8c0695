import BrokerAdmin.Proofs.Filter.Renaming
import BrokerAdmin.Proofs.Selector.Names
import BrokerAdmin.Proofs.Text.SingleQuoted

/-!
# The tokens of a translated selector

Scanning a translated selector gives the tokens of the selector itself, with the client's names and
words replaced by the broker's; where the selector cannot be scanned, its translation fails at the same
place or does not exist. The two are compared by strong induction on the characters, one token at a time.

An identifier that runs into a number before it is the one exception (`5JMSPriority`): it lies in a
word that begins with a digit, and what becomes of it is left open. `Renamed` keeps track of it by saying
whether the tokens begin inside such a word.
-/

namespace BrokerAdmin.Selector

open BrokerAdmin.Filter (Token scan)

/-- The broker's word for a text of a selector. -/
def brokerText (text : String) : String :=
  String.ofList (replaced deliveryModes text.toList)

/-- The token in the words of the broker. -/
def brokerToken : Token → Token :=
  Token.rename brokerName brokerText

/-- Tokens renamed one by one. Only after a number can an identifier begin inside a word, and then any
identifier may stand for it. -/
inductive Renamed : Bool → List Token → List Token → Prop
  | nil {inWord : Bool} : Renamed inWord [] []
  | token {inWord next : Bool} {token : Token} {tokens tokens' : List Token} :
      (next = true → ∃ x, token = .number x) → Renamed next tokens tokens' →
        Renamed inWord (token :: tokens) (brokerToken token :: tokens')
  | inside {name name' : String} {tokens tokens' : List Token} :
      Renamed false tokens tokens' → Renamed true (.ident name :: tokens) (.ident name' :: tokens')

/-- A token behind which no word goes on is renamed. -/
theorem Renamed.cons (inWord : Bool) (token : Token) {tokens tokens' : List Token}
    (h : Renamed false tokens tokens') :
    Renamed inWord (token :: tokens) (brokerToken token :: tokens') :=
  .token (by simp) h

/-- Where no word goes on, the tokens may also be taken to stand behind one. -/
theorem Renamed.of_false {tokens tokens' : List Token} (h : Renamed false tokens tokens')
    (inWord : Bool) : Renamed inWord tokens tokens' := by
  cases h with
  | nil => exact .nil
  | token hnext htokens => exact .token hnext htokens

/-- What scanning a translation gives, beside what scanning the selector gives. -/
def Follows (inWord : Bool) :
    Except Filter.Error (List Token) → Option (Except Filter.Error (List Token)) → Prop
  | .ok tokens, some (.ok tokens') => Renamed inWord tokens tokens'
  | .error e, some (.error e') => e = e'
  | .error _, none => True
  | .ok _, none => False
  | .ok _, some (.error _) => False
  | .error _, some (.ok _) => False

/-- Where no word goes on, the texts may also be taken to stand behind one. -/
theorem Follows.of_false {before : Except Filter.Error (List Token)}
    {after : Option (Except Filter.Error (List Token))} (h : Follows false before after)
    (inWord : Bool) : Follows inWord before after := by
  match before, after, h with
  | .ok _, some (.ok _), h => exact Renamed.of_false h inWord
  | .error _, some (.error _), h => exact h
  | .error _, none, _ => trivial

/-- A text that is scanned is scanned after translation too. -/
theorem Follows.exists_of_ok {inWord : Bool} {tokens : List Token}
    {after : Option (Except Filter.Error (List Token))} (h : Follows inWord (.ok tokens) after) :
    ∃ tokens', after = some (.ok tokens') ∧ Renamed inWord tokens tokens' := by
  match after, h with
  | some (.ok tokens'), h => exact ⟨tokens', rfl, h⟩

/-- What follows a token is compared apart from it. -/
theorem Follows.token {inWord next : Bool} {chars more : List Char} {token : Token} (token' : Token)
    {written : List Char → List Char}
    (hmore : Follows next (scan more) ((translateFrom next more).map scan))
    (hscan : scan chars = (scan more).map (token :: ·))
    (htranslate : translateFrom inWord chars = (translateFrom next more).map written)
    (hwritten : ∀ later, translateFrom next more = some later →
      scan (written later) = (scan later).map (token' :: ·))
    (htoken : ∀ tokens tokens', Renamed next tokens tokens' →
      Renamed inWord (token :: tokens) (token' :: tokens')) :
    Follows inWord (scan chars) ((translateFrom inWord chars).map scan) := by
  rw [hscan, htranslate]
  cases hlater : translateFrom next more with
  | none =>
    rw [hlater] at hmore
    generalize scan more = before at hmore ⊢
    cases before with
    | error e => trivial
    | ok tokens => exact hmore
  | some later =>
    rw [hlater] at hmore
    simp only [Option.map_some] at hmore ⊢
    rw [hwritten later hlater]
    generalize scan more = before at hmore ⊢
    generalize scan later = after at hmore ⊢
    cases before with
    | error e => cases after <;> exact hmore
    | ok tokens =>
      cases after with
      | error e' => exact hmore
      | ok tokens' => exact htoken tokens tokens' hmore

/-- An error is compared on the spot. -/
theorem Follows.error {inWord : Bool} {chars : List Char} {e : Filter.Error}
    (hscan : scan chars = .error e)
    (hlater : ∀ later, translateFrom inWord chars = some later → scan later = .error e) :
    Follows inWord (scan chars) ((translateFrom inWord chars).map scan) := by
  rw [hscan]
  cases htranslate : translateFrom inWord chars with
  | none => trivial
  | some later =>
    rw [Option.map_some, hlater later htranslate]
    exact rfl

/-- That the texts behind a token are compared, wherever they begin. -/
def FollowsAll (chars : List Char) : Prop :=
  ∀ inWord, Follows inWord (scan chars) ((translateFrom inWord chars).map scan)

/-! ### Blank characters and signs -/

/-- Blank characters stay and are passed over. -/
theorem follows_blank (inWord : Bool) {c : Char} (hc : Text.isBlank c = true) {rest : List Char}
    (hrest : FollowsAll rest) :
    Follows inWord (scan (c :: rest)) ((translateFrom inWord (c :: rest)).map scan) := by
  have hquote : c ≠ '\'' := fun h => by subst h; revert hc; decide
  have hscan : scan ∘ (c :: ·) = scan := funext fun later => Filter.scan_blank hc later
  rw [translateFrom_other inWord hquote (isWordChar_of_isBlank hc), Filter.scan_blank hc,
    Option.map_map, hscan]
  exact (hrest false).of_false inWord

/-- The characters of signs stay as they are, apart from quotes. -/
theorem translateFrom_sign (inWord : Bool) {c : Char} {sign : List Char}
    (hc : Filter.isSign c = true) (hquote : c ≠ '\'') (hsign : ∀ d ∈ sign, d ∈ ['=', '>'])
    (more : List Char) :
    translateFrom inWord (c :: (sign ++ more)) =
      (translateFrom false more).map fun later => c :: (sign ++ later) := by
  have hsigns : ∀ d ∈ sign, d ≠ '\'' ∧ isWordChar d = false := by
    intro d hd
    have hd := hsign d hd
    simp only [List.mem_cons, List.not_mem_nil, or_false] at hd
    rcases hd with rfl | rfl <;> decide
  rw [translateFrom_other inWord hquote (Filter.isWordChar_of_isSign hc), translateFrom_others hsigns]
  simp [Function.comp_def]

/-- A parenthesis or a comparison stays, and so does the token that it is. -/
theorem follows_sign (inWord : Bool) {c : Char} (sign : List Char) {more : List Char} (token : Token)
    (hc : Filter.isSign c = true) (hquote : c ≠ '\'') (hsign : ∀ d ∈ sign, d ∈ ['=', '>'])
    (htoken : brokerToken token = token)
    (hfirst : ∀ later : List Char, later.head?.any (· == '>') = more.head?.any (· == '>') →
      later.head?.any (· == '=') = more.head?.any (· == '=') →
        Filter.firstToken c (sign ++ later) = .ok (token, later))
    (hmore : FollowsAll more) :
    Follows inWord (scan (c :: (sign ++ more)))
      ((translateFrom inWord (c :: (sign ++ more))).map scan) := by
  have hblank := Filter.isBlank_of_isSign hc
  refine (hmore false).token token (Filter.scan_token hblank (hfirst more rfl rfl))
    (translateFrom_sign inWord hc hquote hsign more) ?_ ?_
  · intro later hlater
    exact Filter.scan_token hblank (hfirst later (head?_any_translateFrom (by decide) hlater)
      (head?_any_translateFrom (by decide) hlater))
  · intro tokens tokens' htokens
    have hrenamed := Renamed.cons inWord token htokens
    rwa [htoken] at hrenamed

/-- An exclamation mark without an equals sign is as unexpected after translation as before. -/
theorem follows_exclamation (inWord : Bool) {rest : List Char}
    (h : rest.head?.any (· == '=') = false) :
    Follows inWord (scan ('!' :: rest)) ((translateFrom inWord ('!' :: rest)).map scan) := by
  refine Follows.error (Filter.scan_error (by decide) (Filter.firstToken_exclamation h)) ?_
  intro later hlater
  rw [translateFrom_other inWord (by decide) (by decide)] at hlater
  obtain ⟨after, hafter, rfl⟩ := Option.map_eq_some_iff.mp hlater
  exact Filter.scan_error (by decide)
    (Filter.firstToken_exclamation ((head?_any_translateFrom (by decide) hafter).trans h))

/-! ### Literals -/

/-- A literal stays a literal, of the broker's word for its text. -/
theorem follows_literal (inWord : Bool) {rest body more : List Char}
    (h : Text.literal? rest = some (body, more)) (hmore : FollowsAll more) :
    Follows inWord (scan ('\'' :: rest)) ((translateFrom inWord ('\'' :: rest)).map scan) := by
  have hhead := Text.head?_ne_of_literal? h
  refine (hmore false).token (brokerToken (.text (String.ofList body)))
    (Filter.scan_token (by decide) (Filter.firstToken_text h)) (translateFrom_literal inWord h) ?_ ?_
  · intro later hlater
    have hquote : later.head?.any (· == '\'') = more.head?.any (· == '\'') :=
      head?_any_translateFrom (by decide) hlater
    have hlaterHead : later.head? ≠ some '\'' := by
      intro heq
      rw [heq] at hquote
      cases more <;> simp_all
    have hread := Text.literal?_doubled (replaced deliveryModes body) hlaterHead
    rw [Text.enclosed, List.cons_append, List.cons_append, List.append_assoc, List.singleton_append]
    rw [Filter.scan_token (by decide) (Filter.firstToken_text hread)]
    simp [brokerToken, Token.rename, brokerText]
  · intro tokens tokens' htokens
    exact .cons inWord _ htokens

/-- A literal that is not closed is no token, and the selector has no translation. -/
theorem follows_unterminated (inWord : Bool) {rest : List Char} (h : Text.literal? rest = none) :
    Follows inWord (scan ('\'' :: rest)) ((translateFrom inWord ('\'' :: rest)).map scan) := by
  refine Follows.error (Filter.scan_error (by decide) (Filter.firstToken_unterminated h)) ?_
  intro later hlater
  rw [translateFrom_unterminated inWord h] at hlater
  contradiction

/-! ### Numbers and words -/

/-- Whether a number begins hangs on the next character only in whether it is a digit. -/
theorem startsNumber_congr {rest later : List Char} (c : Char)
    (h : later.head?.any Char.isDigit = rest.head?.any Char.isDigit) :
    Filter.startsNumber c later = Filter.startsNumber c rest := by
  simp only [Filter.startsNumber, h]

/-- A number stays, and the word that it may run into is not replaced. -/
theorem follows_number (inWord : Bool) {c : Char} {run more : List Char}
    (hblank : Text.isBlank c = false) (hstart : Filter.startsNumber c (run ++ more) = true)
    (hrun : ∀ d ∈ run, Filter.continuesNumber d = true)
    (hstop : more.head?.any Filter.continuesNumber = false) (hmore : FollowsAll more) :
    Follows inWord (scan (c :: (run ++ more)))
      ((translateFrom inWord (c :: (run ++ more))).map scan) := by
  have hchars : ∀ d ∈ c :: run, d.isDigit = true ∨ d = '.' ∨ d = '-' := by
    refine List.forall_mem_cons.mpr ⟨?_, fun d hd => ?_⟩
    · exact (Filter.isDigit_or_eq_of_startsNumber hstart).imp_right Or.inr
    · have hd := hrun d hd
      simp only [Filter.continuesNumber, Bool.or_eq_true, beq_iff_eq] at hd
      exact hd.imp_right Or.inl
  obtain ⟨next, htranslate⟩ := translateFrom_number inWord hchars
  have hfirst := Filter.firstToken_number hstart hrun hstop
  have hlaterStart : ∀ later, translateFrom next more = some later →
      Filter.startsNumber c (run ++ later) = true ∧
        later.head?.any Filter.continuesNumber = false := by
    intro later hlater
    have hdigit : (run ++ later).head?.any Char.isDigit = (run ++ more).head?.any Char.isDigit := by
      cases run with
      | nil => exact head?_any_translateFrom (by decide) hlater
      | cons d run => rfl
    exact ⟨(startsNumber_congr c hdigit).trans hstart,
      (head?_any_translateFrom (by decide) hlater).trans hstop⟩
  cases hvalue : Binary64.ofText? (c :: run) with
  | none =>
    simp only [hvalue] at hfirst
    refine Follows.error (Filter.scan_error hblank hfirst) ?_
    intro later hlater
    rw [← List.cons_append, htranslate more] at hlater
    obtain ⟨after, hafter, rfl⟩ := Option.map_eq_some_iff.mp hlater
    obtain ⟨hlaterStart, hlaterStop⟩ := hlaterStart after hafter
    have hlaterFirst := Filter.firstToken_number hlaterStart hrun hlaterStop
    simp only [hvalue] at hlaterFirst
    exact Filter.scan_error hblank hlaterFirst
  | some value =>
    simp only [hvalue] at hfirst
    refine (hmore next).token (.number value) (Filter.scan_token hblank hfirst) (htranslate more) ?_ ?_
    · intro later hlater
      obtain ⟨hlaterStart, hlaterStop⟩ := hlaterStart later hlater
      have hlaterFirst := Filter.firstToken_number hlaterStart hrun hlaterStop
      simp only [hvalue] at hlaterFirst
      exact Filter.scan_token hblank hlaterFirst
    · intro tokens tokens' htokens
      have hnumber : next = true → ∃ x, Token.number value = .number x := fun _ => ⟨value, rfl⟩
      exact .token hnumber htokens

/-- A word is an identifier or a keyword, which no renaming changes. -/
theorem ofWord_cases (word : String) :
    Token.ofWord word = .ident word ∨ brokerToken (Token.ofWord word) = Token.ofWord word := by
  unfold Token.ofWord
  split
  case h_8 => exact Or.inl rfl
  all_goals exact Or.inr rfl

/-- An identifier is renamed where it does not go on with a number. -/
theorem Renamed.ident (inWord : Bool) (word : List Char) {tokens tokens' : List Token}
    (h : Renamed false tokens tokens') :
    Renamed inWord (.ident (String.ofList word) :: tokens)
      (.ident (String.ofList (renameChars inWord word)) :: tokens') := by
  cases inWord with
  | true => exact .inside h
  | false =>
    have hrenamed := Renamed.cons false (.ident (String.ofList word)) h
    simpa [brokerToken, Token.rename, brokerName] using hrenamed

/-- A word stays the keyword that it is, or stays an identifier. -/
theorem Renamed.word (inWord : Bool) (word : List Char) {tokens tokens' : List Token}
    (h : Renamed false tokens tokens') :
    Renamed inWord (Token.ofWord (String.ofList word) :: tokens)
      (Token.ofWord (String.ofList (renameChars inWord word)) :: tokens') := by
  rcases ofWord_renameChars inWord word with heq | ⟨hident, hident'⟩
  · rw [heq]
    rcases ofWord_cases (String.ofList word) with hident | hstays
    · have hrenamed := Renamed.ident inWord word h
      rw [heq] at hrenamed
      rwa [hident]
    · have hrenamed := Renamed.cons inWord (Token.ofWord (String.ofList word)) h
      rwa [hstays] at hrenamed
  · rw [hident, hident']
    exact Renamed.ident inWord word h

/-- A word stays a word, with each of its segments replaced. -/
theorem follows_word (inWord : Bool) {c : Char} {run more : List Char}
    (hc : Filter.startsWord c = true) (hrun : ∀ d ∈ run, Filter.continuesWord d = true)
    (hstop : more.head?.any Filter.continuesWord = false) (hmore : FollowsAll more) :
    Follows inWord (scan (c :: (run ++ more)))
      ((translateFrom inWord (c :: (run ++ more))).map scan) := by
  have hblank : ∀ d, Filter.startsWord d = true → Text.isBlank d = false :=
    fun d hd => isBlank_of_isWordChar (isWordChar_of_startsWord hd)
  have hname : ∀ d ∈ c :: run, Filter.continuesWord d = true := by
    refine List.forall_mem_cons.mpr ⟨?_, hrun⟩
    rw [continuesWord_eq, isWordChar_of_startsWord hc, Bool.true_or]
  have hword : more.head?.any isWordChar = false := by
    cases more with
    | nil => rfl
    | cons d more =>
      have hd : Filter.continuesWord d = false := by simpa using hstop
      rw [continuesWord_eq, Bool.or_eq_false_iff] at hd
      simpa using hd.1
  have htranslate := translateFrom_name inWord hname hword
  refine (hmore false).token (Token.ofWord (String.ofList (renameChars inWord (c :: run))))
    (Filter.scan_token (hblank c hc) (Filter.firstToken_word hc hrun hstop)) htranslate ?_ ?_
  · intro later hlater
    have hlaterStop : later.head?.any Filter.continuesWord = false :=
      (head?_any_translateFrom (by decide) hlater).trans hstop
    have hstart : ∃ d tail, renameChars inWord (c :: run) = d :: tail ∧
        Filter.startsWord d = true := by
      have hhead := head?_renameChars inWord hname
      cases hchars : renameChars inWord (c :: run) with
      | nil => simp [hchars] at hhead
      | cons d tail =>
        simp only [hchars, List.head?_cons, Option.some.injEq] at hhead
        rcases hhead with rfl | ⟨-, rfl⟩
        · exact ⟨d, tail, rfl, hc⟩
        · exact ⟨'A', tail, rfl, by decide⟩
    obtain ⟨d, tail, hchars, hd⟩ := hstart
    have hall := continuesWord_of_mem_renameChars inWord hname
    rw [hchars] at hall ⊢
    exact Filter.scan_token (hblank d hd)
      (Filter.firstToken_word hd (List.forall_mem_cons.mp hall).2 hlaterStop)
  · intro tokens tokens' htokens
    exact Renamed.word inWord (c :: run) htokens

/-! ### The whole text -/

/-- What begins no token begins none after translation either. -/
theorem follows_unexpected (inWord : Bool) {c : Char} {rest : List Char}
    (hblank : Text.isBlank c = false) (hsign : Filter.isSign c = false)
    (hnumber : Filter.startsNumber c rest = false) (hword : Filter.startsWord c = false) :
    Follows inWord (scan (c :: rest)) ((translateFrom inWord (c :: rest)).map scan) := by
  have hfirst : ∀ later, Filter.startsNumber c later = false →
      Filter.firstToken c later = .error (.unexpected c) := by
    intro later hlater
    rw [Filter.firstToken_of_not_isSign hsign, hlater, hword]
    rfl
  refine Follows.error (Filter.scan_error hblank (hfirst rest hnumber)) ?_
  intro later hlater
  have hquote : c ≠ '\'' := fun h => by subst h; revert hsign; decide
  have hJ : c ≠ 'J' := fun h => by subst h; revert hword; decide
  have hafter : ∃ next after, later = c :: after ∧ translateFrom next rest = some after := by
    cases hchar : isWordChar c with
    | true =>
      rw [translateFrom_of_ne inWord hchar (Or.inr hJ)] at hlater
      obtain ⟨after, hafter, rfl⟩ := Option.map_eq_some_iff.mp hlater
      exact ⟨true, after, rfl, hafter⟩
    | false =>
      rw [translateFrom_other inWord hquote hchar] at hlater
      obtain ⟨after, hafter, rfl⟩ := Option.map_eq_some_iff.mp hlater
      exact ⟨false, after, rfl, hafter⟩
  obtain ⟨next, after, rfl, hafter⟩ := hafter
  have hdigit : after.head?.any Char.isDigit = rest.head?.any Char.isDigit :=
    head?_any_translateFrom (by decide) hafter
  exact Filter.scan_error hblank (hfirst after ((startsNumber_congr c hdigit).trans hnumber))

/-- What begins with a sign is a parenthesis, a literal, a comparison or an unexpected character. -/
theorem follows_isSign (inWord : Bool) {c : Char} {rest : List Char} (hc : Filter.isSign c = true)
    (hlater : ∀ more : List Char, more.length ≤ rest.length → FollowsAll more) :
    Follows inWord (scan (c :: rest)) ((translateFrom inWord (c :: rest)).map scan) := by
  have hwhole : FollowsAll rest := hlater rest (Nat.le_refl _)
  have hcases : c = '\'' ∨ c = '(' ∨ c = ')' ∨ c ∈ ['=', '<', '>', '!'] := by
    simp only [Filter.isSign, List.contains_eq_mem, decide_eq_true_eq, List.mem_cons,
      List.not_mem_nil, or_false] at hc ⊢
    tauto
  rcases hcases with rfl | rfl | rfl | hsigns
  · cases hliteral : Text.literal? rest with
    | none => exact follows_unterminated inWord hliteral
    | some read =>
      obtain ⟨body, more⟩ := read
      have hlength := Text.length_of_literal? hliteral
      exact follows_literal inWord hliteral (hlater more (Nat.le_of_lt hlength))
  · exact follows_sign inWord [] .leftParen hc (by decide) (by simp) rfl
      (fun _ _ _ => rfl) hwhole
  · exact follows_sign inWord [] .rightParen hc (by decide) (by simp) rfl
      (fun _ _ _ => rfl) hwhole
  · have hquote : c ≠ '\'' := fun h => by subst h; revert hsigns; decide
    cases hcomparison : Filter.comparison? c rest with
    | none =>
      obtain ⟨rfl, hhead⟩ := Filter.eq_of_comparison?_eq_none hsigns hcomparison
      exact follows_exclamation inWord hhead
    | some read =>
      obtain ⟨op, more⟩ := read
      have hlength := Filter.length_of_comparison? hcomparison
      obtain ⟨sign, rfl, hsign, hread⟩ := Filter.comparison?_spec hcomparison
      exact follows_sign inWord sign (.comparison op) hc hquote hsign rfl
        (fun later hgt heq => Filter.firstToken_comparison (hread later hgt heq))
        (hlater more hlength)

/-- A translated selector is scanned as the selector is, in the words of the broker. -/
theorem followsAll (chars : List Char) : FollowsAll chars := by
  -- a token takes any number of characters, so the induction is on how many are left
  induction hlength : chars.length using Nat.strong_induction_on generalizing chars with
  | _ length ih =>
    subst hlength
    intro inWord
    cases chars with
    | nil =>
      rw [translateFrom_nil, Option.map_some, Filter.scan_nil]
      exact Renamed.nil
    | cons c rest =>
      have hlater : ∀ more : List Char, more.length ≤ rest.length → FollowsAll more := by
        intro more hmore
        exact ih more.length (by rw [List.length_cons]; omega) more rfl
      cases hblank : Text.isBlank c with
      | true => exact follows_blank inWord hblank (hlater rest (Nat.le_refl _))
      | false =>
        cases hsign : Filter.isSign c with
        | true => exact follows_isSign inWord hsign hlater
        | false =>
          cases hnumber : Filter.startsNumber c rest with
          | true =>
            obtain ⟨run, more, rfl, hrun, hstop⟩ := Filter.exists_run Filter.continuesNumber rest
            exact follows_number inWord hblank hnumber hrun hstop (hlater more (by simp))
          | false =>
            cases hword : Filter.startsWord c with
            | true =>
              obtain ⟨run, more, rfl, hrun, hstop⟩ := Filter.exists_run Filter.continuesWord rest
              exact follows_word inWord hword hrun hstop (hlater more (by simp))
            | false => exact follows_unexpected inWord hblank hsign hnumber hword

end BrokerAdmin.Selector
