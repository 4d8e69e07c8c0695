import BrokerAdmin.Proofs.Binary64.Numeral
import BrokerAdmin.Proofs.Filter.Joining
import BrokerAdmin.Proofs.Selector.Names

/-!
# Writing expressions

An expression is written as a row of lexemes with blanks between them: names as they are, texts between
quotes with the quotes inside doubled, and numbers by numerals. What is written is therefore an
expression in which a numeral stands for each number. An operand that is itself a chain stands in
parentheses; whether other operands do is a matter of style.

What is written is read back as it was, whatever the blanks are, as long as negations and parentheses are
not nested too deeply. The lexemes are told apart by the seams between them, and the tokens are derived
along the expression.
-/

namespace BrokerAdmin.Filter

/-! ### Lexemes -/

/-- A token together with the characters it is written with. -/
structure Lexeme where
  chars : List Char
  token : Token
  scan_chars : scan chars = .ok [token]

/-- A name that can be written: an identifier that is not a keyword. -/
structure Identifier where
  name : String
  startsWord_head : name.toList.head?.any startsWord = true
  continuesWord_of_mem : ∀ c ∈ name.toList, continuesWord c = true
  upper_not_mem_keywords : Text.upper name ∉ Selector.keywords

/-- A literal that can be written: a number is given by a numeral. -/
inductive LiteralSource where
  | text (value : String)
  | number (numeral : Binary64.Numeral)
  | truth (value : Bool)

/-- The literal that is meant. -/
def LiteralSource.literal : LiteralSource → Literal
  | text value => .text value
  | number numeral => .number numeral.value
  | truth value => .truth value

/-- An identifier alone is scanned as its name. -/
theorem Identifier.scan_name (i : Identifier) : scan i.name.toList = .ok [.ident i.name] := by
  cases hname : i.name.toList with
  | nil =>
    have hhead := i.startsWord_head
    rw [hname] at hhead
    contradiction
  | cons c run =>
    have hc : startsWord c = true := by simpa [hname] using i.startsWord_head
    have hrun : ∀ d ∈ run, continuesWord d = true :=
      fun d hd => i.continuesWord_of_mem d (by simp [hname, hd])
    have hfirst := firstToken_word hc hrun (show [].head?.any continuesWord = false from rfl)
    rw [← hname, String.ofList_toList, Selector.ofWord_eq_ident i.upper_not_mem_keywords,
      List.append_nil] at hfirst
    have hblank := Selector.isBlank_of_isWordChar (Selector.isWordChar_of_startsWord hc)
    rw [scan_token hblank hfirst, scan_nil]
    rfl

/-- A text alone is scanned as what stands between its quotes. -/
theorem scan_enclosed (value : String) :
    scan (Text.enclosed value.toList) = .ok [.text value] := by
  have hend : ([] : List Char).head? ≠ some '\'' := by simp
  have hfirst := firstToken_text (Text.literal?_doubled value.toList hend)
  rw [String.ofList_toList] at hfirst
  rw [Text.enclosed, List.cons_append, scan_token (by decide) hfirst, scan_nil]
  rfl

/-- The characters of a numeral after its sign go on with a number. -/
theorem continuesNumber_of_mem_unsigned (n : Binary64.Numeral) :
    ∀ c ∈ n.unsigned, continuesNumber c = true := by
  intro c hc
  have hdigit : c.isDigit = true ∨ c = '.' := by
    rcases List.mem_append.mp hc with hwhole | hpointed
    · exact Or.inl (n.isDigit_of_mem_whole c hwhole)
    · cases hfraction : n.fraction with
      | none => simp [hfraction, Binary64.Numeral.pointed] at hpointed
      | some digits =>
        rw [hfraction, Binary64.Numeral.pointed, List.mem_cons] at hpointed
        exact hpointed.symm.imp_left (n.isDigit_of_mem_fraction digits hfraction c)
  simpa [continuesNumber] using hdigit

/-- A numeral alone is scanned as the number it denotes. -/
theorem scan_numeral (n : Binary64.Numeral) : scan n.chars = .ok [.number n.value] := by
  obtain ⟨first, rest, hunsigned, hfirst⟩ := n.exists_unsigned_eq_cons
  have hall := continuesNumber_of_mem_unsigned n
  obtain ⟨c, run, hchars, hblank, hstart, hrun⟩ : ∃ c run, n.chars = c :: run ∧
      Text.isBlank c = false ∧ startsNumber c (run ++ []) = true ∧
        ∀ d ∈ run, continuesNumber d = true := by
    cases hnegative : n.negative with
    | true =>
      refine ⟨'-', n.unsigned, by simp [Binary64.Numeral.chars, hnegative], by decide, ?_, hall⟩
      simp [startsNumber, hunsigned, hfirst]
    | false =>
      refine ⟨first, rest, by simp [Binary64.Numeral.chars, hnegative, hunsigned],
        Selector.isBlank_of_isWordChar (Selector.isWordChar_of_isDigit hfirst), ?_, ?_⟩
      · simp [startsNumber, hfirst]
      · exact fun d hd => hall d (by simp [hunsigned, hd])
  have hnumber := firstToken_number hstart hrun (show [].head?.any continuesNumber = false from rfl)
  rw [← hchars, Binary64.ofText?_chars, List.append_nil] at hnumber
  rw [hchars, scan_token hblank hnumber, scan_nil]
  rfl

namespace Lexeme

/-- A name. -/
def identifier (i : Identifier) : Lexeme :=
  ⟨i.name.toList, .ident i.name, i.scan_name⟩

/-- The sign of a comparison. -/
def comparison (op : Comparison) : Lexeme :=
  ⟨op.sign, .comparison op, by cases op <;> decide +kernel⟩

/-- A literal. -/
def literal : LiteralSource → Lexeme
  | .text value => ⟨Text.enclosed value.toList, .text value, scan_enclosed value⟩
  | .number numeral => ⟨numeral.chars, .number numeral.value, scan_numeral numeral⟩
  | .truth true => ⟨"TRUE".toList, .truth true, by decide +kernel⟩
  | .truth false => ⟨"FALSE".toList, .truth false, by decide +kernel⟩

/-- The word of a connective. -/
def connective (c : Connective) : Lexeme :=
  ⟨c.word.toList, c.separator, by cases c <;> decide +kernel⟩

/-- The word of negation. -/
def not : Lexeme := ⟨"NOT".toList, .not, by decide +kernel⟩

/-- The first word of a question for a value. -/
def is : Lexeme := ⟨"IS".toList, .is, by decide +kernel⟩

/-- The word for a value that is missing. -/
def null : Lexeme := ⟨"NULL".toList, .null, by decide +kernel⟩

/-- An opening parenthesis. -/
def leftParen : Lexeme := ⟨['('], .leftParen, by decide +kernel⟩

/-- A closing parenthesis. -/
def rightParen : Lexeme := ⟨[')'], .rightParen, by decide +kernel⟩

/-- Lexemes in parentheses, where this is wanted. -/
def enclose (wanted : Bool) (lexemes : List Lexeme) : List Lexeme :=
  if wanted then leftParen :: lexemes ++ [rightParen] else lexemes

/-- The token of a literal is that of the literal that is meant. -/
theorem literal_token (l : LiteralSource) : (literal l).token = l.literal.token := by
  match l with
  | .text _ | .number _ | .truth true | .truth false => rfl

/-- The tokens of lexemes in parentheses stand between those of the parentheses. -/
theorem enclose_tokens (wanted : Bool) (lexemes : List Lexeme) :
    (enclose wanted lexemes).map token =
      if wanted then .leftParen :: lexemes.map token ++ [.rightParen] else lexemes.map token := by
  cases wanted with
  | true => exact List.map_append
  | false => rfl

/-- The tokens of a chain are those of its members with separators between them. -/
theorem intercalate_tokens (c : Connective) (members : List (List Lexeme)) :
    ([connective c].intercalate members).map token =
      c.interleave (members.map (List.map token)) := by
  unfold Connective.interleave
  induction members with
  | nil => rfl
  | cons first rest ih =>
    cases rest with
    | nil => simp
    | cons second rest =>
      simp only [List.map_cons, List.map_append, List.intercalate_cons_cons] at ih ⊢
      rw [ih]
      rfl

end Lexeme

/-! ### Blanks between lexemes -/

/-- A nonempty run of blanks. -/
structure Gap where
  chars : List Char
  ne_nil : chars ≠ []
  isBlank_of_mem : ∀ c ∈ chars, Text.isBlank c = true

/-- A single space. -/
def Gap.space : Gap where
  chars := [' ']
  ne_nil := List.cons_ne_nil _ _
  isBlank_of_mem := List.forall_mem_singleton.mpr (by decide)

/-- Lexemes with gaps between them; a gap is told by how many lexemes follow the next one. -/
def spaced (gap : Nat → Gap) : List Lexeme → List Char
  | [] => []
  | [last] => last.chars
  | first :: second :: rest =>
    first.chars ++ ((gap rest.length).chars ++ spaced gap (second :: rest))

/-- Lexemes with a single space between them. -/
def singleSpaced (lexemes : List Lexeme) : List Char :=
  [' '].intercalate (lexemes.map Lexeme.chars)

/-- Single spaces are gaps. -/
theorem spaced_space (lexemes : List Lexeme) :
    spaced (fun _ => Gap.space) lexemes = singleSpaced lexemes := by
  unfold singleSpaced
  induction lexemes with
  | nil => simp [spaced]
  | cons first rest ih =>
    cases rest with
    | nil => simp [spaced]
    | cons second rest =>
      rw [List.map_cons, List.map_cons, List.intercalate_cons_cons, ← List.map_cons, ← ih, spaced,
        List.append_assoc]
      rfl

/-- No token runs into a gap. -/
theorem Gap.isSeam_append (gap : Gap) (rest : List Char) : IsSeam (gap.chars ++ rest) := by
  cases hchars : gap.chars with
  | nil => exact absurd hchars gap.ne_nil
  | cons c chars =>
    have hc := gap.isBlank_of_mem c (by simp [hchars])
    exact endsToken_of_isBlank hc

/-- Lexemes with gaps between them are scanned as their tokens. -/
theorem scan_spaced (gap : Nat → Gap) (lexemes : List Lexeme) :
    scan (spaced gap lexemes) = .ok (lexemes.map Lexeme.token) := by
  induction lexemes with
  | nil => exact scan_nil
  | cons first rest ih =>
    cases rest with
    | nil => exact first.scan_chars
    | cons second rest =>
      rw [spaced, scan_append first.scan_chars ((gap rest.length).isSeam_append _),
        scan_blanks (gap rest.length).isBlank_of_mem, ih]
      rfl

/-! ### Expressions -/

/-- An expression that can be written: a chain has at least two operands, and what it is made of can be
written. -/
inductive Source where
  | compare (name : Identifier) (op : Comparison) (literal : LiteralSource)
  | isNull (name : Identifier) (wanted : Bool)
  | chain (c : Connective) (first second : Source) (more : List Source)
  | not (term : Source)

/-- Which operands stand in parentheses; chains always do. -/
structure Style where
  encloses : Source → Bool
  encloses_chain : ∀ c first second more, encloses (.chain c first second more) = true

/-- The style in which all operands but predicates stand in parentheses. -/
def Style.composite : Style where
  encloses
    | .compare .. | .isNull .. => false
    | .chain .. | .not _ => true
  encloses_chain _ _ _ _ := rfl

namespace Source

/-- A property of sources that passes from the operands to the whole is one of all sources. -/
theorem induction {motive : Source → Prop}
    (compare : ∀ name op literal, motive (.compare name op literal))
    (isNull : ∀ name wanted, motive (.isNull name wanted))
    (chain : ∀ c first second more, (∀ operand ∈ first :: second :: more, motive operand) →
      motive (.chain c first second more))
    (not : ∀ term, motive term → motive (.not term)) (s : Source) : motive s := by
  refine @Source.rec motive (fun operands => ∀ operand ∈ operands, motive operand) compare isNull ?_ not
    ?_ ?_ s
  · intro c first second more hfirst hsecond hmore
    exact chain c first second more
      (List.forall_mem_cons.mpr ⟨hfirst, List.forall_mem_cons.mpr ⟨hsecond, hmore⟩⟩)
  · simp
  · intro operand operands hoperand hoperands
    exact List.forall_mem_cons.mpr ⟨hoperand, hoperands⟩

mutual

/-- The expression that is meant. -/
def expr : Source → Expr
  | compare name op literal => .compare name.name op literal.literal
  | isNull name wanted => .isNull name.name wanted
  | chain c first second more => c.join (expr first :: expr second :: exprs more)
  | not term => .not (expr term)

/-- The expressions of several operands. -/
def exprs : List Source → List Expr
  | [] => []
  | operand :: rest => expr operand :: exprs rest

end

mutual

/-- The lexemes of an expression. -/
def lexemes (style : Style) : Source → List Lexeme
  | compare name op literal => [.identifier name, .comparison op, .literal literal]
  | isNull name true => [.identifier name, .is, .null]
  | isNull name false => [.identifier name, .is, .not, .null]
  | chain c first second more =>
    [Lexeme.connective c].intercalate (Lexeme.enclose (style.encloses first) (lexemes style first) ::
      Lexeme.enclose (style.encloses second) (lexemes style second) :: operandLexemes style more)
  | not term => .not :: Lexeme.enclose (style.encloses term) (lexemes style term)

/-- The lexemes of several operands, each in parentheses where it is to be. -/
def operandLexemes (style : Style) : List Source → List (List Lexeme)
  | [] => []
  | operand :: rest =>
    Lexeme.enclose (style.encloses operand) (lexemes style operand) :: operandLexemes style rest

end

mutual

/-- How many negations and parentheses are nested in what is written. -/
def nesting (style : Style) : Source → Nat
  | compare .. => 0
  | isNull .. => 0
  | chain _ first second more =>
    max (nesting style first + (style.encloses first).toNat)
      (max (nesting style second + (style.encloses second).toNat) (operandNesting style more))
  | not term => nesting style term + (style.encloses term).toNat + 1

/-- The deepest nesting among several operands and their parentheses. -/
def operandNesting (style : Style) : List Source → Nat
  | [] => 0
  | operand :: rest =>
    max (nesting style operand + (style.encloses operand).toNat) (operandNesting style rest)

end

/-- The text of an expression, with a single space between two lexemes. -/
def print (style : Style) (s : Source) : String :=
  String.ofList (singleSpaced (s.lexemes style))

/-- The text of an expression with the given gaps. -/
def printSpaced (style : Style) (gap : Nat → Gap) (s : Source) : String :=
  String.ofList (spaced gap (s.lexemes style))

/-! ### Reading back -/

/-- The phrase that an expression is written as. -/
def phrase : Source → Phrase
  | chain c _ _ _ => .chain c
  | _ => .term

/-- An operand as a member of the chain it belongs to. -/
def operand (style : Style) (s : Source) : Part where
  tokens := (Lexeme.enclose (style.encloses s) (s.lexemes style)).map Lexeme.token
  expr := s.expr
  depth := s.nesting style + (style.encloses s).toNat

/-- The expressions of operands are those of the members that they make. -/
theorem exprs_eq_map (style : Style) (operands : List Source) :
    exprs operands = (operands.map (operand style)).map Part.expr := by
  induction operands with
  | nil => rfl
  | cons first rest ih => rw [exprs, ih]; rfl

/-- Operands are nested as deep as the deepest of the members that they make. -/
theorem operandNesting_eq (style : Style) (operands : List Source) :
    operandNesting style operands = Part.deepest (operands.map (operand style)) := by
  induction operands with
  | nil => rfl
  | cons first rest ih => rw [operandNesting, ih]; rfl

/-- The tokens of operands are those of the members that they make. -/
theorem operandLexemes_tokens (style : Style) (operands : List Source) :
    (operandLexemes style operands).map (List.map Lexeme.token) =
      (operands.map (operand style)).map Part.tokens := by
  induction operands with
  | nil => rfl
  | cons first rest ih => rw [operandLexemes, List.map_cons, ih]; rfl

end Source

/-- Every phrase is a whole filter. -/
theorem Derives.whole {p : Phrase} {tokens : List Token} {e : Expr} {depth : Nat}
    (h : Derives p tokens e depth) : Derives (.chain .or) tokens e depth := by
  match p with
  | .term => exact .single (.single h)
  | .chain .and => exact .single h
  | .chain .or => exact h

/-- A term is a member of every chain. -/
theorem Derives.member (c : Connective) {tokens : List Token} {e : Expr} {depth : Nat}
    (h : Derives .term tokens e depth) : Derives c.member tokens e depth := by
  cases c with
  | and => exact h
  | or => exact .single h

namespace Source

/-- An operand is a term: in parentheses, or else no chain. -/
theorem operand_derives (style : Style) (s : Source)
    (h : Derives s.phrase ((s.lexemes style).map Lexeme.token) s.expr (s.nesting style)) :
    Derives .term (s.operand style).tokens s.expr (s.operand style).depth := by
  cases hencloses : style.encloses s with
  | true =>
    have hgroup := Derives.group h.whole
    simpa [operand, hencloses, Lexeme.enclose_tokens] using hgroup
  | false =>
    have hphrase : s.phrase = .term := by
      match s with
      | compare .. | isNull .. | not _ => rfl
      | chain c first second more =>
        rw [style.encloses_chain] at hencloses
        contradiction
    rw [hphrase] at h
    simpa [operand, hencloses, Lexeme.enclose_tokens] using h

/-- The tokens of an expression denote it, with the nesting that is written. -/
theorem derives (style : Style) (s : Source) :
    Derives s.phrase ((s.lexemes style).map Lexeme.token) s.expr (s.nesting style) := by
  induction s using Source.induction with
  | compare name op literal =>
    simp only [lexemes, List.map_cons, List.map_nil, Lexeme.literal_token]
    exact .compare name.name op literal.literal
  | isNull name wanted =>
    cases wanted with
    | true => exact .isNull name.name
    | false => exact .isNotNull name.name
  | chain c first second more ih =>
    have hparts : ∀ part ∈ (first :: second :: more).map (operand style),
        Derives c.member part.tokens part.expr part.depth := by
      intro part hpart
      obtain ⟨s, hs, rfl⟩ := List.mem_map.mp hpart
      exact (operand_derives style s (ih s hs)).member c
    have hseveral := Derives.several (by simp) hparts
    simp only [List.map_cons] at hseveral
    rw [lexemes, Lexeme.intercalate_tokens, List.map_cons, List.map_cons, operandLexemes_tokens, expr,
      exprs_eq_map style, nesting, operandNesting_eq]
    exact hseveral
  | not term ih => exact .negation (operand_derives style term ih)

/-- The text of an expression denotes it, whatever the gaps are. -/
theorem printSpaced_denotes (style : Style) (gap : Nat → Gap) (s : Source) :
    Denotes (s.printSpaced style gap) s.expr (s.nesting style) := by
  have hscan : scan (s.printSpaced style gap).toList =
      .ok ((s.lexemes style).map Lexeme.token) := by
    rw [printSpaced, String.toList_ofList, scan_spaced]
  exact ⟨_, hscan, (s.derives style).whole⟩

end Source

/-- An expression that is written with single spaces between its lexemes, and negations and parentheses
nested no deeper than is allowed, is read back as it was; so it is with any other blanks in place of the
spaces. -/
theorem parse_print (style : Style) (s : Source) (h : s.nesting style ≤ maxNesting) :
    parse (s.print style) = .ok s.expr ∧
      ∀ gap : Nat → Gap, parse (s.printSpaced style gap) = .ok s.expr := by
  have hspaced : ∀ gap : Nat → Gap, parse (s.printSpaced style gap) = .ok s.expr := by
    intro gap
    rw [parse_eq_ok_iff_denotes]
    exact ⟨_, h, s.printSpaced_denotes style gap⟩
  constructor
  · rw [Source.print, ← spaced_space]
    exact hspaced fun _ => Gap.space
  · exact hspaced

/-- A negation with a chain inside, a quote in a text and a number below zero. -/
theorem parse_print_negated_chain :
    parse "a.b <= -12.5 OR ( NOT ( c IS NOT NULL AND d = 'it''s' ) )" =
      .ok (.any [.compare "a.b" .le (.number (Binary64.ofDecimal true 125 (-1))),
        .not (.all [.isNull "c" false, .compare "d" .eq (.text "it's")])]) := by
  let numeral : Binary64.Numeral := ⟨true, ['1', '2'], some ['5'], by simp, List.all_eq_true.mp rfl,
    fun _ hdigits => Option.some.inj hdigits ▸ List.all_eq_true.mp rfl⟩
  let ab : Identifier := ⟨"a.b", by decide, List.all_eq_true.mp (by decide), by decide⟩
  let c : Identifier := ⟨"c", by decide, List.all_eq_true.mp (by decide), by decide⟩
  let d : Identifier := ⟨"d", by decide, List.all_eq_true.mp (by decide), by decide⟩
  let chain : Source := .chain .and (.isNull c false) (.compare d .eq (.text "it's")) []
  let source : Source := .chain .or (.compare ab .le (.number numeral)) (.not chain) []
  have htext : source.print .composite = "a.b <= -12.5 OR ( NOT ( c IS NOT NULL AND d = 'it''s' ) )" := by
    decide +kernel
  have hread := (parse_print .composite source (by decide)).1
  rw [htext] at hread
  exact hread

end BrokerAdmin.Filter
