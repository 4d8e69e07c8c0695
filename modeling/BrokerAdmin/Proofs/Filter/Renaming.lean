import BrokerAdmin.Proofs.Filter.Grammar
import Mathlib.Logic.Basic

/-!
# Renaming in filters

Names and texts of a filter can be replaced in its tokens or in its expression. Replacing them in the
tokens of a phrase gives a phrase of the same shape, which denotes the renamed expression. Whether a
renamed expression holds is decided at its predicates: it holds as the one before when each of
them does.
-/

namespace BrokerAdmin.Filter

/-! ### Expressions by their terms -/

/-- A property of expressions that passes from the terms to the whole is one of all expressions. -/
theorem Expr.induction {motive : Expr → Prop}
    (compare : ∀ name op literal, motive (.compare name op literal))
    (isNull : ∀ name wanted, motive (.isNull name wanted))
    (all : ∀ terms, (∀ term ∈ terms, motive term) → motive (.all terms))
    (any : ∀ terms, (∀ term ∈ terms, motive term) → motive (.any terms))
    (not : ∀ term, motive term → motive (.not term)) (e : Expr) : motive e := by
  refine @Expr.rec motive (fun terms => ∀ term ∈ terms, motive term) compare isNull all any not ?_ ?_ e
  · simp
  · intro term terms hterm hterms
    exact List.forall_mem_cons.mpr ⟨hterm, hterms⟩

/-- A conjunction holds when all its terms do. -/
theorem Expr.holds_all_iff (read : String → Option Literal) (terms : List Expr) :
    (Expr.all terms).holds read = true ↔ ∀ term ∈ terms, term.holds read = true := by
  simp only [holds]
  induction terms with
  | nil => simp [holdsAll]
  | cons term terms ih => simp [holdsAll, ih]

/-- A disjunction holds when one of its terms does. -/
theorem Expr.holds_any_iff (read : String → Option Literal) (terms : List Expr) :
    (Expr.any terms).holds read = true ↔ ∃ term ∈ terms, term.holds read = true := by
  simp only [holds]
  induction terms with
  | nil => simp [holdsAny]
  | cons term terms ih => simp [holdsAny, ih]

/-! ### Renaming -/

/-- The token with names and texts replaced. -/
def Token.rename (name text : String → String) : Token → Token
  | ident n => .ident (name n)
  | .text s => .text (text s)
  | token => token

/-- The literal with texts replaced. -/
def Literal.rename (text : String → String) : Literal → Literal
  | .text s => .text (text s)
  | literal => literal

/-- A literal is renamed as its token is. -/
theorem Literal.token_rename (name text : String → String) (literal : Literal) :
    (literal.rename text).token = literal.token.rename name text := by
  cases literal <;> rfl

mutual

/-- The expression with names and texts replaced. -/
def Expr.rename (name text : String → String) : Expr → Expr
  | .compare n op literal => .compare (name n) op (literal.rename text)
  | .isNull n wanted => .isNull (name n) wanted
  | .all terms => .all (Expr.renameTerms name text terms)
  | .any terms => .any (Expr.renameTerms name text terms)
  | .not term => .not (Expr.rename name text term)

/-- Renamed terms. -/
def Expr.renameTerms (name text : String → String) : List Expr → List Expr
  | [] => []
  | term :: rest => Expr.rename name text term :: Expr.renameTerms name text rest

end

/-- Terms are renamed one by one. -/
theorem Expr.renameTerms_eq_map (name text : String → String) (terms : List Expr) :
    Expr.renameTerms name text terms = terms.map (Expr.rename name text) := by
  induction terms with
  | nil => rfl
  | cons term terms ih => simp [renameTerms, ih]

/-- The expression of a chain is renamed member by member. -/
theorem Connective.join_rename (name text : String → String) (c : Connective) (es : List Expr) :
    (c.join es).rename name text = c.join (es.map (Expr.rename name text)) := by
  cases c <;> simp [join, Expr.rename, Expr.renameTerms_eq_map]

/-- The tokens of a chain are renamed member by member. -/
theorem Connective.interleave_rename (name text : String → String) (c : Connective)
    (members : List (List Token)) :
    (c.interleave members).map (Token.rename name text) =
      c.interleave (members.map (List.map (Token.rename name text))) := by
  have hseparator : c.separator.rename name text = c.separator := by cases c <;> rfl
  cases members with
  | nil => rfl
  | cons first more =>
    rw [List.map_cons, interleave_cons, interleave_cons]
    simp [List.map_flatMap, List.flatMap_map, hseparator]

/-- The member with names and texts replaced. -/
def Part.rename (name text : String → String) (part : Part) : Part where
  tokens := part.tokens.map (Token.rename name text)
  expr := part.expr.rename name text
  depth := part.depth

/-- A phrase with names and texts replaced is a phrase of the same shape and depth. -/
theorem Derives.rename (name text : String → String) {p : Phrase} {tokens : List Token} {e : Expr}
    {depth : Nat} (h : Derives p tokens e depth) :
    Derives p (tokens.map (Token.rename name text)) (e.rename name text) depth := by
  induction h with
  | compare n op literal =>
    simp only [List.map_cons, List.map_nil, ← Literal.token_rename]
    exact .compare (name n) op (literal.rename text)
  | isNull n => exact .isNull (name n)
  | isNotNull n => exact .isNotNull (name n)
  | negation _ ih => exact .negation ih
  | group _ ih =>
    rw [List.map_append, List.map_cons]
    exact .group ih
  | single _ ih => exact .single ih
  | @several c parts htwo _ ih =>
    have hparts : ∀ part ∈ parts.map (Part.rename name text),
        Derives c.member part.tokens part.expr part.depth := by
      intro part hpart
      obtain ⟨before, hbefore, rfl⟩ := List.mem_map.mp hpart
      exact ih before hbefore
    have hseveral := @Derives.several c (parts.map (Part.rename name text))
      (by simpa using htwo) hparts
    rw [Connective.interleave_rename, Connective.join_rename]
    simpa [Part.deepest, Function.comp_def, Part.rename] using hseveral

/-! ### Undoing a renaming -/

/-- Only an identifier is renamed to an identifier. -/
theorem Token.eq_ident_of_rename {name text : String → String} {token : Token} {n : String}
    (h : token.rename name text = .ident n) : ∃ m, token = .ident m ∧ name m = n := by
  cases token with
  | ident m => exact ⟨m, rfl, Token.ident.inj h⟩
  | _ => cases h

/-- Whether a token has neither a name nor a text to replace. -/
def Token.isFixed : Token → Bool
  | ident _ | text _ => false
  | _ => true

/-- A token with nothing to replace is what only itself is renamed to. -/
theorem Token.eq_of_rename {name text : String → String} {token token' : Token}
    (hfixed : token'.isFixed = true) (h : token.rename name text = token') : token = token' := by
  subst h
  cases token with
  | ident | text => cases hfixed
  | _ => rfl

/-- Only a literal is renamed to a literal. -/
theorem Literal.exists_of_token_rename {name text : String → String} {token : Token} {literal : Literal}
    (h : token.rename name text = literal.token) :
    ∃ before : Literal, token = before.token ∧ before.rename text = literal := by
  cases literal with
  | text s =>
    cases token with
    | text s' => exact ⟨.text s', rfl, congrArg Literal.text (Token.text.inj h)⟩
    | _ => cases h
  | number x => exact ⟨.number x, Token.eq_of_rename rfl h, rfl⟩
  | truth b => exact ⟨.truth b, Token.eq_of_rename rfl h, rfl⟩

/-- Renamed tokens of phrases behind separators are the tokens of phrases behind separators, renamed. -/
theorem Connective.exists_parts_of_rename {name text : String → String} (c : Connective) {p : Phrase}
    (parts : List Part)
    (hparts : ∀ part ∈ parts, ∀ tokens, tokens.map (Token.rename name text) = part.tokens →
      ∃ e, Derives p tokens e part.depth ∧ e.rename name text = part.expr)
    {tokens : List Token} (htokens : tokens.map (Token.rename name text) =
      (parts.map Part.tokens).flatMap fun tokens => c.separator :: tokens) :
    ∃ before : List Part, before.map (Part.rename name text) = parts ∧
      tokens = ((before.map Part.tokens).flatMap fun tokens => c.separator :: tokens) ∧
      ∀ part ∈ before, Derives p part.tokens part.expr part.depth := by
  induction parts generalizing tokens with
  | nil => exact ⟨[], rfl, List.map_eq_nil_iff.mp htokens, nofun⟩
  | cons part parts ih =>
    obtain ⟨hpart, hparts⟩ := List.forall_mem_cons.mp hparts
    rw [List.map_cons, List.flatMap_cons, List.cons_append] at htokens
    obtain ⟨separator, tokens, rfl, hseparator, htokens⟩ := List.map_eq_cons_iff.mp htokens
    obtain ⟨first, rest, rfl, hfirst, hrest⟩ := List.map_eq_append_iff.mp htokens
    obtain rfl : separator = c.separator := by
      cases c <;> exact Token.eq_of_rename rfl hseparator
    obtain ⟨e, hderives, hexpr⟩ := hpart first hfirst
    obtain ⟨before, hbefore, rfl, hall⟩ := ih hparts hrest
    refine ⟨⟨first, e, part.depth⟩ :: before, ?_, rfl, List.forall_mem_cons.mpr ⟨hderives, hall⟩⟩
    rw [List.map_cons, hbefore, Part.rename, hfirst, hexpr]

/-- Tokens are a phrase if their renaming is one, of the same shape and depth. -/
theorem Derives.of_rename {name text : String → String} {p : Phrase} {tokens tokens' : List Token}
    {e' : Expr} {depth : Nat} (h : Derives p tokens' e' depth)
    (htokens : tokens.map (Token.rename name text) = tokens') :
    ∃ e, Derives p tokens e depth ∧ e.rename name text = e' := by
  induction h generalizing tokens with
  | compare n op literal =>
    obtain ⟨first, tokens, rfl, hfirst, htokens⟩ := List.map_eq_cons_iff.mp htokens
    obtain ⟨second, tokens, rfl, hsecond, htokens⟩ := List.map_eq_cons_iff.mp htokens
    obtain ⟨third, rfl, hthird⟩ := List.map_eq_singleton_iff.mp htokens
    obtain ⟨m, rfl, rfl⟩ := Token.eq_ident_of_rename hfirst
    obtain rfl := Token.eq_of_rename rfl hsecond
    obtain ⟨before, rfl, rfl⟩ := Literal.exists_of_token_rename hthird
    exact ⟨_, .compare m op before, rfl⟩
  | isNull n =>
    obtain ⟨first, tokens, rfl, hfirst, htokens⟩ := List.map_eq_cons_iff.mp htokens
    obtain ⟨second, tokens, rfl, hsecond, htokens⟩ := List.map_eq_cons_iff.mp htokens
    obtain ⟨third, rfl, hthird⟩ := List.map_eq_singleton_iff.mp htokens
    obtain ⟨m, rfl, rfl⟩ := Token.eq_ident_of_rename hfirst
    obtain rfl := Token.eq_of_rename rfl hsecond
    obtain rfl := Token.eq_of_rename rfl hthird
    exact ⟨_, .isNull m, rfl⟩
  | isNotNull n =>
    obtain ⟨first, tokens, rfl, hfirst, htokens⟩ := List.map_eq_cons_iff.mp htokens
    obtain ⟨second, tokens, rfl, hsecond, htokens⟩ := List.map_eq_cons_iff.mp htokens
    obtain ⟨third, tokens, rfl, hthird, htokens⟩ := List.map_eq_cons_iff.mp htokens
    obtain ⟨fourth, rfl, hfourth⟩ := List.map_eq_singleton_iff.mp htokens
    obtain ⟨m, rfl, rfl⟩ := Token.eq_ident_of_rename hfirst
    obtain rfl := Token.eq_of_rename rfl hsecond
    obtain rfl := Token.eq_of_rename rfl hthird
    obtain rfl := Token.eq_of_rename rfl hfourth
    exact ⟨_, .isNotNull m, rfl⟩
  | negation _ ih =>
    obtain ⟨first, rest, rfl, hfirst, hrest⟩ := List.map_eq_cons_iff.mp htokens
    obtain rfl := Token.eq_of_rename rfl hfirst
    obtain ⟨e, hderives, rfl⟩ := ih hrest
    exact ⟨.not e, .negation hderives, rfl⟩
  | group _ ih =>
    obtain ⟨opened, closing, rfl, hopened, hclosing⟩ := List.map_eq_append_iff.mp htokens
    obtain ⟨first, inner, rfl, hfirst, hinner⟩ := List.map_eq_cons_iff.mp hopened
    obtain ⟨last, rfl, hlast⟩ := List.map_eq_singleton_iff.mp hclosing
    obtain rfl := Token.eq_of_rename rfl hfirst
    obtain rfl := Token.eq_of_rename rfl hlast
    obtain ⟨e, hderives, rfl⟩ := ih hinner
    exact ⟨e, .group hderives, rfl⟩
  | single _ ih =>
    obtain ⟨e, hderives, rfl⟩ := ih htokens
    exact ⟨e, .single hderives, rfl⟩
  | @several c parts htwo _ ih =>
    match parts, htwo with
    | first :: more, htwo =>
      obtain ⟨hfirst, hmore⟩ := List.forall_mem_cons.mp ih
      rw [List.map_cons, Connective.interleave_cons] at htokens
      obtain ⟨tokens, rest, rfl, htokens, hrest⟩ := List.map_eq_append_iff.mp htokens
      obtain ⟨e, hderives, hexpr⟩ := hfirst htokens
      obtain ⟨before, rfl, rfl, hbefore⟩ :=
        c.exists_parts_of_rename more (fun part hpart _ => hmore part hpart) hrest
      have hseveral := @Derives.several c (⟨tokens, e, first.depth⟩ :: before) (by simpa using htwo)
        (List.forall_mem_cons.mpr ⟨hderives, hbefore⟩)
      refine ⟨c.join (e :: before.map Part.expr), ?_, ?_⟩
      · rw [List.map_cons, Connective.interleave_cons] at hseveral
        simpa [Part.deepest, Function.comp_def, Part.rename] using hseveral
      · rw [Connective.join_rename, List.map_cons, List.map_cons, hexpr]
        simp [Function.comp_def, Part.rename]

/-! ### Predicates -/

/-- A predicate of an expression: its name, and what that is compared with unless the predicate
asks whether there is a value at all. -/
structure Predicate where
  name : String
  comparison : Option (Comparison × Literal)

mutual

/-- The predicates of an expression, from left to right. -/
def Expr.predicates : Expr → List Predicate
  | .compare name op literal => [⟨name, some (op, literal)⟩]
  | .isNull name _ => [⟨name, none⟩]
  | .all terms => Expr.predicatesOfTerms terms
  | .any terms => Expr.predicatesOfTerms terms
  | .not term => Expr.predicates term

/-- The predicates of several terms. -/
def Expr.predicatesOfTerms : List Expr → List Predicate
  | [] => []
  | term :: rest => Expr.predicates term ++ Expr.predicatesOfTerms rest

end

/-- The predicates of a term are among those of all terms. -/
theorem Expr.mem_predicatesOfTerms {terms : List Expr} {term : Expr} (hterm : term ∈ terms)
    {p : Predicate} (hp : p ∈ term.predicates) : p ∈ Expr.predicatesOfTerms terms := by
  induction terms with
  | nil => contradiction
  | cons first rest ih =>
    rw [predicatesOfTerms, List.mem_append]
    rcases List.mem_cons.mp hterm with rfl | hrest
    · exact Or.inl hp
    · exact Or.inr (ih hrest)

/-- A predicate holds under one reading of renamed names as it does under another reading of the names
before. -/
def Predicate.Agrees (name text : String → String) (read read' : String → Option Literal)
    (p : Predicate) : Prop :=
  match p.comparison with
  | none => (read (name p.name)).isNone = (read' p.name).isNone
  | some (op, literal) =>
    Literal.satisfies (read (name p.name)) op (literal.rename text) =
      Literal.satisfies (read' p.name) op literal

/-- A renamed expression holds as the one before when each of its predicates does. -/
theorem Expr.holds_rename {name text : String → String} {read read' : String → Option Literal}
    (e : Expr) (h : ∀ p ∈ e.predicates, p.Agrees name text read read') :
    (e.rename name text).holds read = e.holds read' := by
  induction e using Expr.induction with
  | compare n op literal => exact h _ (List.mem_singleton_self _)
  | isNull n wanted =>
    have hnull : (read (name n)).isNone = (read' n).isNone := h _ (List.mem_singleton_self _)
    simp only [rename, holds, hnull]
  | all terms ih =>
    have hterms : ∀ term ∈ terms, (term.rename name text).holds read = term.holds read' :=
      fun term hterm => ih term hterm fun p hp => h p (mem_predicatesOfTerms hterm hp)
    rw [Bool.eq_iff_iff, rename, renameTerms_eq_map, holds_all_iff, holds_all_iff, List.forall_mem_map]
    exact forall₂_congr fun term hterm => by rw [hterms term hterm]
  | any terms ih =>
    have hterms : ∀ term ∈ terms, (term.rename name text).holds read = term.holds read' :=
      fun term hterm => ih term hterm fun p hp => h p (mem_predicatesOfTerms hterm hp)
    rw [Bool.eq_iff_iff, rename, renameTerms_eq_map, holds_any_iff, holds_any_iff]
    simp only [List.mem_map, exists_exists_and_eq_and]
    exact exists_congr fun term => and_congr_right fun hterm => by rw [hterms term hterm]
  | not term ih =>
    have hterm := ih h
    simp only [rename, holds, hterm]

end BrokerAdmin.Filter
