import BrokerAdmin.Filter.Parser
import BrokerAdmin.Proofs.Outcome

/-!
# The grammar of filters

The grammar is written here without regard to how filters are read: a relation between phrases, lists
of tokens and expressions, which also counts under how many negations and parentheses the deepest
predicate lies. Reading from a list of tokens accepts exactly what the grammar derives down to the
allowed nesting, with the same expression.

Soundness follows the allowance of the reader, completeness the derivation. What may follow a phrase
without being taken for a part of it is said once, by `Phrase.EndsBefore`.
-/

namespace BrokerAdmin.Filter

/-- The token that a literal is written as. -/
def Literal.token : Literal → Token
  | text s => .text s
  | number x => .number x
  | truth b => .truth b

/-- A literal is read from its own token and from no other. -/
theorem Literal.ofToken?_eq_some_iff (token : Token) (literal : Literal) :
    Literal.ofToken? token = some literal ↔ token = literal.token := by
  cases token <;> cases literal <;> simp [Literal.ofToken?, Literal.token]

/-- A connective that joins the members of a chain. -/
inductive Connective where
  | and
  | or
  deriving DecidableEq

/-- The phrases of the grammar: terms, and the chains of either connective. -/
inductive Phrase where
  | term
  | chain (connective : Connective)
  deriving DecidableEq

namespace Connective

/-- The token between two members of a chain. -/
def separator : Connective → Token
  | and => .and
  | or => .or

/-- The expression of a chain of several members. -/
def join : Connective → List Expr → Expr
  | and => .all
  | or => .any

/-- What a chain is made of: `AND` joins terms, and `OR` joins what `AND` has joined. -/
def member : Connective → Phrase
  | and => .term
  | or => .chain .and

/-- The members of a chain with the separator between them. -/
def interleave (c : Connective) (members : List (List Token)) : List Token :=
  [c.separator].intercalate members

/-- After the first member each further one stands behind a separator. -/
theorem interleave_cons (c : Connective) (first : List Token) (more : List (List Token)) :
    c.interleave (first :: more) = first ++ more.flatMap fun tokens => c.separator :: tokens := by
  induction more generalizing first with
  | nil => simp [interleave]
  | cons second rest ih =>
    have hrest := ih second
    simp only [interleave] at hrest ⊢
    rw [List.intercalate_cons_cons, hrest]
    simp

end Connective

/-- A member of a chain: its tokens, its expression and how deep its predicates lie. -/
structure Part where
  tokens : List Token
  expr : Expr
  depth : Nat

/-- How deep the deepest of the members lies. -/
def Part.deepest (parts : List Part) : Nat :=
  (parts.map Part.depth).foldr max 0

/-- The deepest member lies within a bound exactly when all of them do. -/
theorem Part.deepest_le_iff (parts : List Part) (bound : Nat) :
    Part.deepest parts ≤ bound ↔ ∀ part ∈ parts, part.depth ≤ bound := by
  induction parts with
  | nil => simp [deepest]
  | cons part rest ih =>
    change max part.depth (deepest rest) ≤ bound ↔ _
    rw [Nat.max_le, ih, List.forall_mem_cons]

/-- The tokens of a phrase with the expression that they denote, and the number of negations and
parentheses around the deepest predicate. A chain of one member is that member, and a longer one a
single flat expression. -/
inductive Derives : Phrase → List Token → Expr → Nat → Prop
  | compare (name : String) (op : Comparison) (literal : Literal) :
      Derives .term [.ident name, .comparison op, literal.token] (.compare name op literal) 0
  | isNull (name : String) :
      Derives .term [.ident name, .is, .null] (.isNull name true) 0
  | isNotNull (name : String) :
      Derives .term [.ident name, .is, .not, .null] (.isNull name false) 0
  | negation {tokens : List Token} {e : Expr} {depth : Nat} :
      Derives .term tokens e depth → Derives .term (.not :: tokens) (.not e) (depth + 1)
  | group {tokens : List Token} {e : Expr} {depth : Nat} :
      Derives (.chain .or) tokens e depth →
        Derives .term (.leftParen :: tokens ++ [.rightParen]) e (depth + 1)
  | single {c : Connective} {tokens : List Token} {e : Expr} {depth : Nat} :
      Derives c.member tokens e depth → Derives (.chain c) tokens e depth
  | several {c : Connective} {parts : List Part} :
      2 ≤ parts.length →
        (∀ part ∈ parts, Derives c.member part.tokens part.expr part.depth) →
          Derives (.chain c) (c.interleave (parts.map Part.tokens)) (c.join (parts.map Part.expr))
            (Part.deepest parts)

/-- No phrase is without tokens. -/
theorem Derives.ne_nil {p : Phrase} {tokens : List Token} {e : Expr} {depth : Nat}
    (h : Derives p tokens e depth) : tokens ≠ [] := by
  induction h with
  | compare | isNull | isNotNull | negation | group => simp
  | single _ ih => exact ih
  | @several c parts htwo _ ih =>
    match parts, htwo with
    | first :: more, _ =>
      have hfirst := ih first List.mem_cons_self
      simp [Connective.interleave_cons, hfirst]

/-- A chain of two members is nested as deep as the deeper of them. -/
theorem Derives.pair {c : Connective} {tokens tokens' : List Token} {e e' : Expr} {depth depth' : Nat}
    (h : Derives c.member tokens e depth) (h' : Derives c.member tokens' e' depth') :
    Derives (.chain c) (tokens ++ c.separator :: tokens') (c.join [e, e']) (max depth depth') := by
  have hparts := @Derives.several c [⟨tokens, e, depth⟩, ⟨tokens', e', depth'⟩] (Nat.le_refl 2)
    (by simp [h, h'])
  simpa [Connective.interleave_cons, Part.deepest] using hparts

/-- How a phrase is read with an allowance for negations and parentheses. -/
def Phrase.read (allowance : Nat) : Phrase → List Token → Reading
  | term => Filter.term allowance
  | chain .and => conjunction (Filter.term allowance)
  | chain .or => disjunction (Filter.term allowance)

/-- A chain is read member by member, at one allowance for all of them. -/
theorem Phrase.read_chain (allowance : Nat) (c : Connective) :
    (Phrase.chain c).read allowance =
      Filter.chain c.separator c.join (c.member.read allowance) := by
  cases c <;> rfl

/-- Every reading takes a phrase off the front whose predicates lie within the bound. -/
def Phrase.Sound (p : Phrase) (bound : Nat) (read : List Token → Reading) : Prop :=
  ∀ tokens e rest, read tokens = .ok (e, rest) →
    ∃ taken depth, tokens = taken ++ rest ∧ depth ≤ bound ∧ Derives p taken e depth

/-- Tokens that do not carry on a phrase which ends before them. -/
def Phrase.EndsBefore : Phrase → List Token → Prop
  | term, _ => True
  | chain .and, rest => rest.head? ≠ some .and
  | chain .or, rest => rest.head? ≠ some .and ∧ rest.head? ≠ some .or

/-- Nothing carries on a phrase at the end of the tokens. -/
theorem Phrase.endsBefore_nil (p : Phrase) : p.EndsBefore [] := by
  match p with
  | term => trivial
  | chain .and => simp [EndsBefore]
  | chain .or => simp [EndsBefore]

/-- A chain that ends is not carried on by its separator, and its last member ends too. -/
theorem Phrase.endsBefore_chain {c : Connective} {rest : List Token}
    (h : (Phrase.chain c).EndsBefore rest) :
    rest.head? ≠ some c.separator ∧ c.member.EndsBefore rest := by
  cases c with
  | and => exact ⟨h, trivial⟩
  | or => exact ⟨h.2, h.1⟩

/-- A member of a chain ends before the separator. -/
theorem Connective.member_endsBefore (c : Connective) (rest : List Token) :
    c.member.EndsBefore (c.separator :: rest) := by
  cases c with
  | and => trivial
  | or => simp [member, separator, Phrase.EndsBefore]

/-! ### Soundness -/

/-- The links of a chain are members behind separators. -/
theorem links_sound {c : Connective} {bound : Nat} {read : List Token → Reading}
    (hread : c.member.Sound bound read) (limit : Nat) (tokens rest : List Token) (es : List Expr)
    (h : links c.separator read limit tokens = .ok (es, rest)) :
    ∃ parts : List Part, es = parts.map Part.expr ∧
      tokens = (parts.map Part.tokens).flatMap (fun tokens => c.separator :: tokens) ++ rest ∧
      ∀ part ∈ parts, part.depth ≤ bound ∧ Derives c.member part.tokens part.expr part.depth := by
  fun_induction links c.separator read limit tokens generalizing es rest with
  | case1 limit tokens error hfirst => simp at h
  | case2 limit tokens e after hfirst ih =>
    obtain ⟨⟨more, rest'⟩, hmore, heq⟩ := map_eq_ok_iff.mp h
    simp only [Prod.mk.injEq] at heq
    obtain ⟨rfl, rfl⟩ := heq
    obtain ⟨taken, depth, rfl, hdepth, hderives⟩ := hread tokens e after hfirst
    obtain ⟨parts, rfl, rfl, hparts⟩ := ih rest' more hmore
    refine ⟨⟨taken, e, depth⟩ :: parts, rfl, by simp, ?_⟩
    exact List.forall_mem_cons.mpr ⟨⟨hdepth, hderives⟩, hparts⟩
  | case3 limit token tokens htoken =>
    simp only [Except.ok.injEq, Prod.mk.injEq] at h
    obtain ⟨rfl, rfl⟩ := h
    exact ⟨[], by simp⟩
  | case4 limit tokens _ =>
    simp only [Except.ok.injEq, Prod.mk.injEq] at h
    obtain ⟨rfl, rfl⟩ := h
    exact ⟨[], by simp⟩

/-- A chain is sound when its members are. -/
theorem chain_sound {c : Connective} {bound : Nat} {read : List Token → Reading}
    (hread : c.member.Sound bound read) :
    (Phrase.chain c).Sound bound (chain c.separator c.join read) := by
  intro tokens e rest h
  unfold chain at h
  split at h
  next error hfirst => simp at h
  next first after hfirst =>
    obtain ⟨⟨more, rest'⟩, hmore, heq⟩ := map_eq_ok_iff.mp h
    simp only [Prod.mk.injEq] at heq
    obtain ⟨rfl, rfl⟩ := heq
    obtain ⟨taken, depth, rfl, hdepth, hderives⟩ := hread tokens first after hfirst
    obtain ⟨parts, rfl, rfl, hparts⟩ := links_sound hread _ _ _ _ hmore
    cases parts with
    | nil => exact ⟨taken, depth, by simp, hdepth, .single hderives⟩
    | cons second parts =>
      have hall : ∀ part ∈ ⟨taken, first, depth⟩ :: second :: parts,
          part.depth ≤ bound ∧ Derives c.member part.tokens part.expr part.depth :=
        List.forall_mem_cons.mpr ⟨⟨hdepth, hderives⟩, hparts⟩
      refine ⟨_, _, ?_, ?_, .several (by simp) fun part hpart => (hall part hpart).2⟩
      · simp only [List.map_cons, Connective.interleave_cons, List.append_assoc]
      · exact (Part.deepest_le_iff _ _).mpr fun part hpart => (hall part hpart).1

/-- A predicate is read from the tokens after its name. -/
theorem predicate_sound (name : String) (tokens rest : List Token) (e : Expr)
    (h : predicate name tokens = .ok (e, rest)) :
    ∃ taken, tokens = taken ++ rest ∧ Derives .term (.ident name :: taken) e 0 := by
  unfold predicate at h
  split at h
  next op tokens =>
    unfold comparisonWith at h
    cases tokens with
    | nil => simp at h
    | cons token tokens =>
      cases hliteral : Literal.ofToken? token with
      | none => simp [hliteral] at h
      | some literal =>
        simp only [hliteral, Except.ok.injEq, Prod.mk.injEq] at h
        obtain ⟨rfl, rfl⟩ := h
        obtain rfl := (Literal.ofToken?_eq_some_iff token literal).mp hliteral
        exact ⟨[.comparison op, literal.token], rfl, .compare name op literal⟩
  next =>
    simp only [Except.ok.injEq, Prod.mk.injEq] at h
    obtain ⟨rfl, rfl⟩ := h
    exact ⟨[.is, .not, .null], rfl, .isNotNull name⟩
  next =>
    simp only [Except.ok.injEq, Prod.mk.injEq] at h
    obtain ⟨rfl, rfl⟩ := h
    exact ⟨[.is, .null], rfl, .isNull name⟩
  next => simp at h
  next => simp at h

/-- Phrases of every kind are sound when terms are. -/
theorem Phrase.read_sound_of_term {allowance : Nat}
    (hterm : Phrase.term.Sound allowance (Filter.term allowance)) (p : Phrase) :
    p.Sound allowance (p.read allowance) := by
  have hand : (Phrase.chain .and).Sound allowance ((Phrase.chain .and).read allowance) := by
    rw [Phrase.read_chain]
    exact chain_sound hterm
  match p with
  | .term => exact hterm
  | .chain .and => exact hand
  | .chain .or =>
    rw [Phrase.read_chain]
    exact chain_sound hand

/-- A term in parentheses is as deep as what stands inside, and one more. -/
theorem group_sound {allowance : Nat}
    (hinner : (Phrase.chain .or).Sound allowance (disjunction (term allowance)))
    (tokens rest : List Token) (e : Expr)
    (h : group (disjunction (term allowance)) tokens = .ok (e, rest)) :
    ∃ taken depth, .leftParen :: tokens = taken ++ rest ∧ depth ≤ allowance + 1 ∧
      Derives .term taken e depth := by
  unfold group at h
  split at h <;> try contradiction
  next after hread =>
    simp only [Except.ok.injEq, Prod.mk.injEq] at h
    obtain ⟨rfl, rfl⟩ := h
    obtain ⟨taken, depth, rfl, hdepth, hderives⟩ := hinner tokens _ _ hread
    exact ⟨.leftParen :: taken ++ [.rightParen], depth + 1, by simp, by omega, .group hderives⟩

/-- Every reading with an allowance is sound for it. -/
theorem Phrase.read_sound (allowance : Nat) (p : Phrase) : p.Sound allowance (p.read allowance) := by
  refine Phrase.read_sound_of_term ?_ p
  induction allowance with
  | zero =>
    intro tokens e rest h
    unfold Filter.term at h
    split at h <;> try contradiction
    next name tokens =>
      obtain ⟨taken, rfl, hderives⟩ := predicate_sound name tokens rest e h
      exact ⟨.ident name :: taken, 0, rfl, Nat.le_refl 0, hderives⟩
  | succ allowance ih =>
    intro tokens e rest h
    unfold Filter.term at h
    split at h <;> try contradiction
    next name tokens =>
      obtain ⟨taken, rfl, hderives⟩ := predicate_sound name tokens rest e h
      exact ⟨.ident name :: taken, 0, rfl, Nat.zero_le _, hderives⟩
    next tokens hsucc =>
      obtain rfl := Nat.succ.inj hsucc
      obtain ⟨⟨inner, rest'⟩, hinner, hpair⟩ := map_eq_ok_iff.mp h
      simp only [Prod.mk.injEq] at hpair
      obtain ⟨rfl, rfl⟩ := hpair
      obtain ⟨taken, depth, rfl, hdepth, hderives⟩ := ih tokens inner rest' hinner
      exact ⟨.not :: taken, depth + 1, rfl, by omega, .negation hderives⟩
    next tokens hsucc =>
      obtain rfl := Nat.succ.inj hsucc
      exact group_sound (Phrase.read_sound_of_term ih (.chain .or)) tokens rest e h

/-! ### Completeness -/

/-- Members behind separators are read as the links of a chain, up to where the chain ends. -/
theorem links_complete {c : Connective} {read : List Token → Reading} (parts : List Part)
    (hread : ∀ part ∈ parts, ∀ rest, c.member.EndsBefore rest →
      read (part.tokens ++ rest) = .ok (part.expr, rest))
    (rest : List Token) (hrest : (Phrase.chain c).EndsBefore rest) (limit : Nat)
    (hlimit : parts.length ≤ limit) :
    links c.separator read limit
        ((parts.map Part.tokens).flatMap (fun tokens => c.separator :: tokens) ++ rest) =
      .ok (parts.map Part.expr, rest) := by
  obtain ⟨hhead, hmember⟩ := Phrase.endsBefore_chain hrest
  induction parts generalizing limit with
  | nil =>
    cases limit with
    | zero => rfl
    | succ limit =>
      cases rest with
      | nil => rfl
      | cons token rest =>
        have htoken : token ≠ c.separator := fun heq => hhead (by rw [heq]; rfl)
        simp [links, htoken]
  | cons part parts ih =>
    obtain ⟨limit, rfl⟩ : ∃ k, limit = k + 1 := ⟨limit - 1, by simp at hlimit; omega⟩
    -- behind the member stands the end of the chain or another separator, and both end the member
    have hends : c.member.EndsBefore
        ((parts.map Part.tokens).flatMap (fun tokens => c.separator :: tokens) ++ rest) := by
      cases parts with
      | nil => exact hmember
      | cons second parts => exact c.member_endsBefore _
    have hpart := hread part List.mem_cons_self _ hends
    have hparts := ih (fun other hother => hread other (List.mem_cons_of_mem _ hother)) limit
      (by simpa using hlimit)
    simp only [List.map_cons, List.flatMap_cons, List.cons_append, List.append_assoc, links, if_true]
    rw [hpart]
    dsimp only
    rw [hparts]
    rfl

/-- Every link takes at least its separator. -/
theorem Connective.length_le_length_links (c : Connective) (members : List (List Token)) :
    members.length ≤ (members.flatMap fun tokens => c.separator :: tokens).length := by
  induction members with
  | nil => exact Nat.le_refl 0
  | cons first rest ih =>
    simp only [List.flatMap_cons, List.length_append, List.length_cons]
    omega

/-- A chain is read to its end when each of its members is. -/
theorem chain_complete {c : Connective} {read : List Token → Reading} (first : Part)
    (more : List Part)
    (hread : ∀ part ∈ first :: more, ∀ rest, c.member.EndsBefore rest →
      read (part.tokens ++ rest) = .ok (part.expr, rest))
    (rest : List Token) (hrest : (Phrase.chain c).EndsBefore rest) :
    chain c.separator c.join read (c.interleave ((first :: more).map Part.tokens) ++ rest) =
      .ok (if more.isEmpty then first.expr else c.join ((first :: more).map Part.expr), rest) := by
  have hends : c.member.EndsBefore
      ((more.map Part.tokens).flatMap (fun tokens => c.separator :: tokens) ++ rest) := by
    cases more with
    | nil => exact (Phrase.endsBefore_chain hrest).2
    | cons second more => exact c.member_endsBefore _
  have hfirst := hread first List.mem_cons_self _ hends
  have hmore := links_complete more (fun part hpart => hread part (List.mem_cons_of_mem _ hpart))
    rest hrest
  rw [List.map_cons, Connective.interleave_cons, List.append_assoc]
  unfold chain
  rw [hfirst]
  dsimp only
  rw [hmore]
  · cases more <;> rfl
  · have hlength := c.length_le_length_links (more.map Part.tokens)
    simp only [List.length_map, List.length_append] at hlength ⊢
    omega

/-- What the grammar derives within the allowance is read as it is derived. -/
theorem Derives.read_eq {p : Phrase} {tokens : List Token} {e : Expr} {depth : Nat}
    (h : Derives p tokens e depth) (allowance : Nat) (hdepth : depth ≤ allowance)
    (rest : List Token) (hrest : p.EndsBefore rest) :
    p.read allowance (tokens ++ rest) = .ok (e, rest) := by
  induction h generalizing allowance rest with
  | compare name op literal =>
    have hliteral := (Literal.ofToken?_eq_some_iff _ literal).mpr rfl
    simp [Phrase.read, term, predicate, comparisonWith, hliteral]
  | isNull name => simp [Phrase.read, term, predicate]
  | isNotNull name => simp [Phrase.read, term, predicate]
  | negation _ ih =>
    obtain ⟨allowance, rfl⟩ : ∃ k, allowance = k + 1 := ⟨allowance - 1, by omega⟩
    have hinner := ih allowance (by omega) rest trivial
    simp only [Phrase.read] at hinner
    simp [Phrase.read, term, hinner, Except.map]
  | @group tokens e depth _ ih =>
    obtain ⟨allowance, rfl⟩ : ∃ k, allowance = k + 1 := ⟨allowance - 1, by omega⟩
    have hinner := ih allowance (by omega) (.rightParen :: rest) (by simp [Phrase.EndsBefore])
    simp only [Phrase.read] at hinner
    simp [Phrase.read, term, Filter.group, hinner]
  | @single c tokens e depth _ ih =>
    have hchain := @chain_complete c (c.member.read allowance) ⟨tokens, e, depth⟩ []
      (by
        intro part hpart rest hrest
        obtain rfl := List.mem_singleton.mp hpart
        exact ih allowance hdepth rest hrest) rest hrest
    rw [Phrase.read_chain]
    simpa [Connective.interleave] using hchain
  | @several c parts htwo _ ih =>
    have hdepths := (Part.deepest_le_iff parts allowance).mp hdepth
    match parts, htwo with
    | first :: second :: more, _ =>
      have hchain := chain_complete first (second :: more)
        (fun part hpart rest hrest => ih part hpart allowance (hdepths part hpart) rest hrest)
        rest hrest
      rw [Phrase.read_chain]
      simpa using hchain

/-- A phrase with nothing after it is read exactly as the grammar derives it within the allowance. -/
theorem Phrase.read_eq_ok_iff (p : Phrase) (allowance : Nat) (tokens : List Token) (e : Expr) :
    p.read allowance tokens = .ok (e, []) ↔ ∃ depth ≤ allowance, Derives p tokens e depth := by
  constructor
  · intro h
    obtain ⟨taken, depth, rfl, hdepth, hderives⟩ := p.read_sound allowance tokens e [] h
    exact ⟨depth, hdepth, by simpa using hderives⟩
  · rintro ⟨depth, hdepth, hderives⟩
    simpa using hderives.read_eq allowance hdepth [] p.endsBefore_nil

/-- Tokens denote an expression as a whole when they are read to their end. -/
theorem ofTokens_eq_ok_iff (tokens : List Token) (e : Expr) :
    ofTokens tokens = .ok e ↔ expression tokens = .ok (e, []) := by
  unfold ofTokens
  split <;> simp_all

/-- A text is read as the expression that the grammar derives from its tokens within the allowed
nesting. -/
theorem parse_eq_ok_iff (text : String) (e : Expr) :
    parse text = .ok e ↔ ∃ tokens, scan text.toList = .ok tokens ∧
      ∃ depth ≤ maxNesting, Derives (.chain .or) tokens e depth := by
  unfold parse
  cases scan text.toList with
  | error e => simp
  | ok tokens =>
    simp only [Except.ok.injEq, exists_eq_left']
    cases tokens with
    | nil => exact iff_of_false (by simp) fun ⟨_, _, hderives⟩ => hderives.ne_nil rfl
    | cons token tokens =>
      rw [← Phrase.read_eq_ok_iff]
      exact ofTokens_eq_ok_iff (token :: tokens) e

/-- The grammar gives no list of tokens two meanings, however deep the nesting. -/
theorem Derives.unique {p : Phrase} {tokens : List Token} {e e' : Expr} {depth depth' : Nat}
    (h : Derives p tokens e depth) (h' : Derives p tokens e' depth') : e = e' := by
  have hread := h.read_eq (max depth depth') (Nat.le_max_left _ _) [] p.endsBefore_nil
  have hread' := h'.read_eq (max depth depth') (Nat.le_max_right _ _) [] p.endsBefore_nil
  rw [hread] at hread'
  simpa using hread'

/-- A member in parentheses, one level deeper. -/
def Part.parenthesized (part : Part) : Part where
  tokens := .leftParen :: part.tokens ++ [.rightParen]
  expr := part.expr
  depth := part.depth + 1

/-- Groups beside each other are nested no deeper than the deepest of them. -/
theorem Derives.siblings (c : Connective) (groups : List Part) (htwo : 2 ≤ groups.length)
    (hgroups : ∀ part ∈ groups, Derives (.chain .or) part.tokens part.expr part.depth) :
    Derives (.chain .or) (c.interleave (groups.map fun part => part.parenthesized.tokens))
      (c.join (groups.map Part.expr)) (Part.deepest (groups.map Part.parenthesized)) := by
  have hterms : ∀ part ∈ groups.map Part.parenthesized,
      Derives .term part.tokens part.expr part.depth := by
    intro part hpart
    obtain ⟨inner, hinner, rfl⟩ := List.mem_map.mp hpart
    exact .group (hgroups inner hinner)
  have hlength : 2 ≤ (groups.map Part.parenthesized).length := by simpa using htwo
  have htokens : (groups.map Part.parenthesized).map Part.tokens =
      groups.map fun part => part.parenthesized.tokens := by simp
  have hexprs : (groups.map Part.parenthesized).map Part.expr = groups.map Part.expr := by
    simp [Part.parenthesized]
  rw [← htokens, ← hexprs]
  cases c with
  | and => exact .single (.several (c := .and) hlength hterms)
  | or => exact .several (c := .or) hlength fun part hpart => .single (hterms part hpart)

/-- Reading accepts exactly the grammar: a list of tokens is read to its end, with an expression, just
when the grammar derives it with that expression and no predicate lies under more negations and
parentheses than are allowed. No list has two expressions, and groups beside each other, however many,
are accepted when each of them alone leaves room for its parentheses. -/
theorem expression_accepts_grammar :
    (∀ (tokens : List Token) (e : Expr), expression tokens = .ok (e, []) ↔
      ∃ depth ≤ maxNesting, Derives (.chain .or) tokens e depth) ∧
    (∀ (tokens : List Token) (e e' : Expr) (depth depth' : Nat),
      Derives (.chain .or) tokens e depth → Derives (.chain .or) tokens e' depth' → e = e') ∧
    ∀ (c : Connective) (groups : List Part), 2 ≤ groups.length →
      (∀ part ∈ groups, part.depth < maxNesting ∧
        Derives (.chain .or) part.tokens part.expr part.depth) →
      expression (c.interleave (groups.map fun part => part.parenthesized.tokens)) =
        .ok (c.join (groups.map Part.expr), []) := by
  refine ⟨fun tokens e => (Phrase.chain .or).read_eq_ok_iff maxNesting tokens e,
    fun tokens e e' depth depth' => Derives.unique, ?_⟩
  intro c groups htwo hgroups
  refine ((Phrase.chain .or).read_eq_ok_iff maxNesting _ _).mpr ⟨_, ?_,
    Derives.siblings c groups htwo fun part hpart => (hgroups part hpart).2⟩
  rw [Part.deepest_le_iff]
  intro part hpart
  obtain ⟨inner, hinner, rfl⟩ := List.mem_map.mp hpart
  exact (hgroups inner hinner).1

/-- Two groups joined by `OR`, one of them with a negation inside. -/
theorem expression_accepts_two_groups :
    expression [.leftParen, .ident "a", .is, .null, .rightParen, .or, .leftParen, .not, .ident "b", .is,
        .not, .null, .rightParen] =
      .ok (.any [.isNull "a" true, .not (.isNull "b" false)], []) := by
  have hgroups := expression_accepts_grammar.2.2 .or
    [⟨[.ident "a", .is, .null], .isNull "a" true, 0⟩,
      ⟨[.not, .ident "b", .is, .not, .null], .not (.isNull "b" false), 1⟩] (by decide)
    (by
      intro part hpart
      simp only [List.mem_cons, List.not_mem_nil, or_false] at hpart
      rcases hpart with rfl | rfl
      · exact ⟨by decide, .single (c := .or) (.single (c := .and) (.isNull "a"))⟩
      · exact ⟨by decide, .single (c := .or) (.single (c := .and) (.negation (.isNotNull "b")))⟩)
  exact hgroups

end BrokerAdmin.Filter
