import BrokerAdmin.Proofs.Filter.Grammar
import BrokerAdmin.Proofs.Filter.Scanning
import BrokerAdmin.Proofs.Text.SingleQuoted

/-!
# Filters that are put together as texts

The tokens of two texts beside each other are those of the first followed by those of the second, provided
that no token runs over the seam. Where the second text begins with a blank or a closing parenthesis
none does. So a filter may be put in parentheses, negated and joined with another as a text, and denotes the
negation or the connection of what the texts denote; each step takes its part of the allowed nesting. Both
operands have the same allowance, so what is nested in one of them takes nothing from the other.
-/

namespace BrokerAdmin.Text

/-- A literal is read as before when something else than a quote comes after the text. -/
theorem literal?_append {chars body rest later : List Char} (h : literal? chars = some (body, rest))
    (hlater : later.head? ≠ some '\'') : literal? (chars ++ later) = some (body, rest ++ later) := by
  fun_induction literal? chars generalizing body rest with
  | case1 => contradiction
  | case2 more ih =>
    obtain ⟨⟨body', rest'⟩, hmore, heq⟩ := Option.map_eq_some_iff.mp h
    obtain ⟨rfl, rfl⟩ := Prod.mk.inj heq
    simp only [List.cons_append, literal?, ih hmore, Option.map_some]
  | case3 more hmore =>
    obtain ⟨rfl, rfl⟩ := Prod.mk.inj (Option.some.inj h)
    apply literal?_quote
    cases more with
    | nil => exact hlater
    | cons c more =>
      intro heq
      obtain rfl : c = '\'' := by simpa using heq
      exact hmore more rfl
  | case4 c more hpair hquote ih =>
    obtain ⟨⟨body', rest'⟩, hmore, heq⟩ := Option.map_eq_some_iff.mp h
    obtain ⟨rfl, rfl⟩ := Prod.mk.inj heq
    have hc : c ≠ '\'' := fun heq => hquote heq
    rw [List.cons_append, literal?, ih hmore]
    · rfl
    · exact fun _ heq => absurd heq hc
    · exact fun heq => absurd heq hc

end BrokerAdmin.Text

namespace BrokerAdmin.Filter

/-! ### Seams -/

/-- Whether every token ends before a character: no word, number, literal or comparison goes on with it. -/
def endsToken (c : Char) : Bool :=
  !(continuesWord c || c == '\'' || c == '=' || c == '>')

/-- A text that no token runs into. -/
def IsSeam (chars : List Char) : Prop :=
  chars.head?.all endsToken = true

/-- A class of characters that go on with tokens does not meet a seam. -/
theorem IsSeam.head?_any {later : List Char} (hlater : IsSeam later) {p : Char → Bool}
    (hp : ∀ c, p c = true → endsToken c = false) : later.head?.any p = false := by
  cases later with
  | nil => rfl
  | cons c later =>
    have hc : endsToken c = true := by simpa [IsSeam] using hlater
    rw [List.head?_cons, Option.any_some, Bool.eq_false_iff]
    intro hpc
    rw [hp c hpc] at hc
    contradiction

/-- What comes at a seam does not change what a text begins with. -/
theorem IsSeam.head?_append_any {later : List Char} (hlater : IsSeam later) {p : Char → Bool}
    (hp : ∀ c, p c = true → endsToken c = false) (chars : List Char) :
    (chars ++ later).head?.any p = chars.head?.any p := by
  cases chars with
  | nil => exact hlater.head?_any hp
  | cons c chars => rfl

/-- A word does not go on at a seam. -/
theorem endsToken_of_continuesWord {c : Char} (hc : continuesWord c = true) : endsToken c = false := by
  simp [endsToken, hc]

/-- A number does not go on at a seam. -/
theorem endsToken_of_continuesNumber {c : Char} (hc : continuesNumber c = true) :
    endsToken c = false := by
  apply endsToken_of_continuesWord
  simp only [continuesNumber, Bool.or_eq_true] at hc
  rw [Selector.continuesWord_eq]
  rcases hc with hdigit | hdot
  · rw [Selector.isWordChar_of_isDigit hdigit, Bool.true_or]
  · rw [hdot, Bool.or_true]

/-- A blank is a seam. -/
theorem endsToken_of_isBlank {c : Char} (hc : Text.isBlank c = true) : endsToken c = true := by
  have hword := Selector.isWordChar_of_isBlank hc
  have hdot : c ≠ '.' := fun h => by subst h; revert hc; decide
  have hquote : c ≠ '\'' := fun h => by subst h; revert hc; decide
  have heq : c ≠ '=' := fun h => by subst h; revert hc; decide
  have hgt : c ≠ '>' := fun h => by subst h; revert hc; decide
  simp [endsToken, Selector.continuesWord_eq, hword, hdot, hquote, heq, hgt]

/-- A comparison is read as before when a seam comes after the text. -/
theorem comparison?_append {c : Char} {chars more later : List Char} {op : Comparison}
    (h : comparison? c chars = some (op, more)) (hlater : IsSeam later) :
    comparison? c (chars ++ later) = some (op, more ++ later) := by
  obtain ⟨sign, rfl, -, hread⟩ := comparison?_spec h
  rw [List.append_assoc]
  apply hread
  · apply hlater.head?_append_any
    intro d hd
    obtain rfl : d = '>' := by simpa using hd
    decide
  · apply hlater.head?_append_any
    intro d hd
    obtain rfl : d = '=' := by simpa using hd
    decide

/-- A number or a word is read as before when a seam comes after the text. -/
theorem firstToken_append_of_not_isSign {c : Char} {chars more later : List Char} {token : Token}
    (hsign : isSign c = false) (h : firstToken c chars = .ok (token, more)) (hlater : IsSeam later) :
    firstToken c (chars ++ later) = .ok (token, more ++ later) := by
  have hdigit : (chars ++ later).head?.any Char.isDigit = chars.head?.any Char.isDigit := by
    apply hlater.head?_append_any
    intro d hd
    apply endsToken_of_continuesNumber
    rw [continuesNumber, hd, Bool.true_or]
  have hstart : startsNumber c (chars ++ later) = startsNumber c chars := by
    simp only [startsNumber, hdigit]
  cases hnumber : startsNumber c chars with
  | true =>
    obtain ⟨run, rest, rfl, hrun, hrest⟩ := exists_run continuesNumber chars
    rw [hnumber, List.append_assoc] at hstart
    have hstop : (rest ++ later).head?.any continuesNumber = false := by
      rw [hlater.head?_append_any fun _ => endsToken_of_continuesNumber]
      exact hrest
    rw [firstToken_number hnumber hrun hrest] at h
    rw [List.append_assoc, firstToken_number hstart hrun hstop]
    cases hvalue : Binary64.ofText? (c :: run) with
    | none =>
      simp only [hvalue] at h
      contradiction
    | some value =>
      simp only [hvalue] at h
      obtain ⟨rfl, rfl⟩ := Prod.mk.inj (Except.ok.inj h)
      rfl
  | false =>
    cases hword : startsWord c with
    | true =>
      obtain ⟨run, rest, rfl, hrun, hrest⟩ := exists_run continuesWord chars
      have hstop : (rest ++ later).head?.any continuesWord = false := by
        rw [hlater.head?_append_any fun _ => endsToken_of_continuesWord]
        exact hrest
      rw [firstToken_word hword hrun hrest] at h
      obtain ⟨rfl, rfl⟩ := Prod.mk.inj (Except.ok.inj h)
      rw [List.append_assoc, firstToken_word hword hrun hstop]
    | false =>
      rw [firstToken_of_not_isSign hsign, hnumber, hword] at h
      contradiction

/-- The first token of a text is read as before when a seam comes after the text. -/
theorem firstToken_append {c : Char} {chars more later : List Char} {token : Token}
    (h : firstToken c chars = .ok (token, more)) (hlater : IsSeam later) :
    firstToken c (chars ++ later) = .ok (token, more ++ later) := by
  cases hsign : isSign c with
  | false => exact firstToken_append_of_not_isSign hsign h hlater
  | true =>
    have hcases : c = '\'' ∨ c = '(' ∨ c = ')' ∨ c ∈ ['=', '<', '>', '!'] := by
      simp only [isSign, List.contains_eq_mem, decide_eq_true_eq, List.mem_cons, List.not_mem_nil,
        or_false] at hsign ⊢
      tauto
    rcases hcases with rfl | rfl | rfl | hsigns
    · cases hliteral : Text.literal? chars with
      | none =>
        rw [firstToken_unterminated hliteral] at h
        contradiction
      | some read =>
        obtain ⟨body, rest⟩ := read
        rw [firstToken_text hliteral] at h
        obtain ⟨rfl, rfl⟩ := Prod.mk.inj (Except.ok.inj h)
        apply firstToken_text
        apply Text.literal?_append hliteral
        intro hquote
        rw [IsSeam, hquote] at hlater
        revert hlater
        decide
    · obtain ⟨rfl, rfl⟩ := Prod.mk.inj (Except.ok.inj h)
      rfl
    · obtain ⟨rfl, rfl⟩ := Prod.mk.inj (Except.ok.inj h)
      rfl
    · cases hcomparison : comparison? c chars with
      | none =>
        obtain ⟨rfl, hhead⟩ := eq_of_comparison?_eq_none hsigns hcomparison
        rw [firstToken_exclamation hhead] at h
        contradiction
      | some read =>
        obtain ⟨op, rest⟩ := read
        rw [firstToken_comparison hcomparison] at h
        obtain ⟨rfl, rfl⟩ := Prod.mk.inj (Except.ok.inj h)
        exact firstToken_comparison (comparison?_append hcomparison hlater)

/-- The tokens of a text come before those of what follows at a seam. -/
theorem scan_append {chars later : List Char} {tokens : List Token} (h : scan chars = .ok tokens)
    (hlater : IsSeam later) : scan (chars ++ later) = (scan later).map (tokens ++ ·) := by
  fun_induction scan chars generalizing tokens with
  | case1 =>
    obtain rfl := Except.ok.inj h
    rw [List.nil_append]
    cases scan later <;> rfl
  | case2 c rest hblank ih =>
    rw [List.cons_append, scan_blank hblank]
    exact ih h
  | case3 c rest hblank token more hfirst _ ih =>
    obtain ⟨tokens, hmore, rfl⟩ := map_eq_ok_iff.mp h
    have hblank : Text.isBlank c = false := by simpa using hblank
    rw [List.cons_append, scan_token hblank (firstToken_append hfirst hlater), ih hmore]
    cases scan later <;> rfl
  | case4 => contradiction

/-- A text in parentheses is scanned between the tokens of the parentheses, whatever follows. -/
theorem scan_parenthesized {chars : List Char} {tokens : List Token} (h : scan chars = .ok tokens)
    (later : List Char) : scan ('(' :: (chars ++ ')' :: later)) =
      (scan later).map fun more => .leftParen :: tokens ++ [.rightParen] ++ more := by
  have hclose : scan (')' :: later) = (scan later).map (.rightParen :: ·) :=
    scan_token (by decide) rfl
  have hseam : IsSeam (')' :: later) := show endsToken ')' = true by decide
  rw [scan_token (by decide) rfl, scan_append h hseam, hclose]
  cases scan later with
  | error e => rfl
  | ok more => simp [Except.map]

/-- A keyword or identifier stands apart from what follows a space. -/
theorem scan_word_space {word : List Char} {token : Token} (h : scan word = .ok [token])
    (later : List Char) : scan (word ++ ' ' :: later) = (scan later).map (token :: ·) := by
  have hseam : IsSeam (' ' :: later) := show endsToken ' ' = true by decide
  rw [scan_append h hseam, scan_blank (by decide)]
  rfl

/-! ### Texts of filters -/

/-- A text is a filter of that expression, whose deepest predicate lies under that many negations and
parentheses. -/
def Denotes (text : String) (e : Expr) (depth : Nat) : Prop :=
  ∃ tokens, scan text.toList = .ok tokens ∧ Derives (.chain .or) tokens e depth

/-- Reading accepts the filters whose predicates lie within the allowed nesting. -/
theorem parse_eq_ok_iff_denotes (text : String) (e : Expr) :
    parse text = .ok e ↔ ∃ depth ≤ maxNesting, Denotes text e depth := by
  rw [parse_eq_ok_iff]
  constructor
  · rintro ⟨tokens, hscan, depth, hdepth, hderives⟩
    exact ⟨depth, hdepth, tokens, hscan, hderives⟩
  · rintro ⟨depth, hdepth, tokens, hscan, hderives⟩
    exact ⟨tokens, hscan, depth, hdepth, hderives⟩

/-- A filter whose predicates lie within the allowed nesting is read. -/
theorem Denotes.parse_eq {text : String} {e : Expr} {depth : Nat} (h : Denotes text e depth)
    (hdepth : depth ≤ maxNesting) : parse text = .ok e :=
  (parse_eq_ok_iff_denotes text e).mpr ⟨depth, hdepth, h⟩

/-- A filter that can be read is not blank. -/
theorem isBlankText_of_parse {text : String} {e : Expr} (h : parse text = .ok e) :
    Text.isBlankText text = false := by
  obtain ⟨tokens, hscan, depth, -, hderives⟩ := (parse_eq_ok_iff text e).mp h
  exact isBlankText_of_scan hscan hderives.ne_nil

/-- A filter that can be read is read as well where it is optional. -/
theorem parseOptional_of_parse {text : String} {e : Expr} (h : parse text = .ok e) :
    parseOptional (some text) = .ok (some e) := by
  simp only [parseOptional, isBlankText_of_parse h, h, Bool.false_eq_true, if_false]
  rfl

/-- The negation of a filter, as a text. -/
def negated (text : String) : String :=
  "NOT (" ++ text ++ ")"

/-- The word of a connective. -/
def Connective.word : Connective → String
  | and => "AND"
  | or => "OR"

/-- Two filters joined by a connective, as a text. -/
def Connective.joined (c : Connective) (left right : String) : String :=
  "(" ++ left ++ ") " ++ c.word ++ " (" ++ right ++ ")"

example : Connective.and.joined "a = 1" (negated "b = 2") = "(a = 1) AND (NOT (b = 2))" := rfl

/-- The negation of a text denotes the negation of what the text denotes. -/
theorem Denotes.negated {text : String} {e : Expr} {depth : Nat} (h : Denotes text e depth) :
    Denotes (negated text) (.not e) (depth + 2) := by
  obtain ⟨tokens, hscan, hderives⟩ := h
  have hchars : (Filter.negated text).toList =
      "NOT".toList ++ ' ' :: '(' :: (text.toList ++ ')' :: []) := by
    simp [Filter.negated]
  have hnot : scan "NOT".toList = .ok [.not] := by decide +kernel
  refine ⟨.not :: (.leftParen :: tokens ++ [.rightParen]), ?_, .single (.single (.negation (.group hderives)))⟩
  rw [hchars, scan_word_space hnot, scan_parenthesized hscan, scan_nil]
  simp [Except.map]

/-- Two texts that are joined denote the connection of what they denote. -/
theorem Denotes.joined (c : Connective) {left right : String} {e e' : Expr} {depth depth' : Nat}
    (h : Denotes left e depth) (h' : Denotes right e' depth') :
    Denotes (c.joined left right) (c.join [e, e']) (max depth depth' + 1) := by
  obtain ⟨tokens, hscan, hderives⟩ := h
  obtain ⟨tokens', hscan', hderives'⟩ := h'
  have hchars : (c.joined left right).toList = '(' :: (left.toList ++ ')' :: ' ' ::
      (c.word.toList ++ ' ' :: '(' :: (right.toList ++ ')' :: []))) := by
    simp [Connective.joined]
  have hword : scan c.word.toList = .ok [c.separator] := by cases c <;> decide +kernel
  have hparts := Derives.siblings c [⟨tokens, e, depth⟩, ⟨tokens', e', depth'⟩] (Nat.le_refl 2)
    (by simp [hderives, hderives'])
  have hdepth : Part.deepest ([⟨tokens, e, depth⟩, ⟨tokens', e', depth'⟩].map Part.parenthesized) =
      max depth depth' + 1 := by
    simp only [Part.deepest, Part.parenthesized, List.map_cons, List.map_nil, List.foldr_cons,
      List.foldr_nil]
    omega
  rw [hdepth] at hparts
  refine ⟨_, ?_, hparts⟩
  rw [hchars, scan_parenthesized hscan, scan_blank (by decide), scan_word_space hword,
    scan_parenthesized hscan', scan_nil]
  simp [Except.map, Connective.interleave_cons, Part.parenthesized]

/-! ### Messages -/

/-- A conjunction of two accepts what both accept. -/
theorem Expr.accepts_all_pair (e e' : Expr) (m : Message) :
    (Expr.all [e, e']).accepts m = (e.accepts m && e'.accepts m) := by
  simp [accepts, holds, holdsAll]

/-- A disjunction of two accepts what one of them accepts. -/
theorem Expr.accepts_any_pair (e e' : Expr) (m : Message) :
    (Expr.any [e, e']).accepts m = (e.accepts m || e'.accepts m) := by
  simp [accepts, holds, holdsAny]

/-- A negation accepts what the term does not. -/
theorem Expr.accepts_not (e : Expr) (m : Message) : (Expr.not e).accepts m = !e.accepts m := by
  simp [accepts, holds]

/-- Two texts that are filters, with room for two more levels of nesting in each, are filters as well when
they are joined and negated as texts. The conjunction accepts the messages that both accept, the
disjunction those that one of them accepts, and the negation those that the filter does not accept. -/
theorem parse_joined {left right : String} {e e' : Expr} {depth depth' : Nat}
    (hleft : Denotes left e depth) (hdepth : depth + 2 ≤ maxNesting)
    (hright : Denotes right e' depth') (hdepth' : depth' + 2 ≤ maxNesting) :
    parse left = .ok e ∧ parse right = .ok e' ∧
    (∃ both, parse (Connective.and.joined left right) = .ok both ∧
      ∀ m : Message, both.accepts m = true ↔ e.accepts m = true ∧ e'.accepts m = true) ∧
    (∃ either, parse (Connective.or.joined left right) = .ok either ∧
      ∀ m : Message, either.accepts m = true ↔ e.accepts m = true ∨ e'.accepts m = true) ∧
    ∃ opposite, parse (negated left) = .ok opposite ∧
      ∀ m : Message, opposite.accepts m = true ↔ ¬ e.accepts m = true := by
  have hjoined : ∀ c : Connective, parse (c.joined left right) = .ok (c.join [e, e']) :=
    fun c => (hleft.joined c hright).parse_eq (by omega)
  refine ⟨hleft.parse_eq (by omega), hright.parse_eq (by omega), ⟨_, hjoined .and, fun m => ?_⟩,
    ⟨_, hjoined .or, fun m => ?_⟩, ⟨_, hleft.negated.parse_eq hdepth, fun m => ?_⟩⟩
  · rw [Connective.join, Expr.accepts_all_pair, Bool.and_eq_true]
  · rw [Connective.join, Expr.accepts_any_pair, Bool.or_eq_true]
  · rw [Expr.accepts_not, Bool.not_eq_true', Bool.not_eq_true]

/-- A disjunction with a parenthesis between quotes, and a negation. -/
theorem parse_joined_disjunction :
    ∃ both either opposite,
      parse "(a = ')' OR b IS NULL) AND (NOT c IS NULL)" = .ok both ∧
      parse "(a = ')' OR b IS NULL) OR (NOT c IS NULL)" = .ok either ∧
      parse "NOT (a = ')' OR b IS NULL)" = .ok opposite ∧
      ∀ m : Message,
        let left := (Expr.any [.compare "a" .eq (.text ")"), .isNull "b" true]).accepts m
        let right := (Expr.not (.isNull "c" true)).accepts m
        (both.accepts m = true ↔ left = true ∧ right = true) ∧
          (either.accepts m = true ↔ left = true ∨ right = true) ∧
            (opposite.accepts m = true ↔ ¬ left = true) := by
  have hleft : Denotes "a = ')' OR b IS NULL"
      (.any [.compare "a" .eq (.text ")"), .isNull "b" true]) 0 := by
    have hequal : Derives (.chain .and) [.ident "a", .comparison .eq, .text ")"]
        (.compare "a" .eq (.text ")")) 0 := .single (.compare "a" .eq (.text ")"))
    have hnull : Derives (.chain .and) [.ident "b", .is, .null] (.isNull "b" true) 0 :=
      .single (.isNull "b")
    exact ⟨_, by decide +kernel, .pair (c := .or) hequal hnull⟩
  have hright : Denotes "NOT c IS NULL" (.not (.isNull "c" true)) 1 :=
    ⟨[.not, .ident "c", .is, .null], by decide +kernel,
      .single (c := .or) (.single (c := .and) (.negation (.isNull "c")))⟩
  obtain ⟨-, -, ⟨both, hboth, hand⟩, ⟨either, heither, hor⟩, ⟨opposite, hopposite, hnot⟩⟩ :=
    parse_joined hleft (by decide) hright (by decide)
  exact ⟨both, either, opposite, hboth, heither, hopposite, fun m => ⟨hand m, hor m, hnot m⟩⟩

end BrokerAdmin.Filter
