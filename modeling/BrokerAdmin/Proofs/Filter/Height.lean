import BrokerAdmin.Proofs.Filter.Renaming

/-!
# The height of an expression

Each negation and each pair of parentheses may bring one level of chains of either connective with it, so
an expression is at most about twice as high as its predicates are nested. The bound is that of the
grammar, by induction on the derivation, and it cannot be lowered. Evaluation descends to the terms of an
expression only; with as many evaluations inside one another as an expression is high it comes to its end.
-/

namespace BrokerAdmin.Filter

/-! ### Heights -/

mutual

/-- The height of an expression: that of a predicate is one, and any other expression is one higher than
its highest term. -/
def Expr.height : Expr → Nat
  | .compare .. => 1
  | .isNull .. => 1
  | .all terms => Expr.heightOfTerms terms + 1
  | .any terms => Expr.heightOfTerms terms + 1
  | .not term => Expr.height term + 1

/-- The height of the highest of several terms. -/
def Expr.heightOfTerms : List Expr → Nat
  | [] => 0
  | term :: rest => max (Expr.height term) (Expr.heightOfTerms rest)

end

/-- The highest term lies within a bound exactly when all terms do. -/
theorem Expr.heightOfTerms_le_iff (terms : List Expr) (bound : Nat) :
    Expr.heightOfTerms terms ≤ bound ↔ ∀ term ∈ terms, term.height ≤ bound := by
  induction terms with
  | nil => simp [heightOfTerms]
  | cons term rest ih => rw [heightOfTerms, Nat.max_le, ih, List.forall_mem_cons]

/-- A chain is one higher than its highest member. -/
theorem Connective.height_join (c : Connective) (terms : List Expr) :
    (c.join terms).height = Expr.heightOfTerms terms + 1 := by
  cases c <;> rfl

/-- How high a phrase can be without a negation or parentheses: a term is a predicate, and each chain adds
one to its members. -/
def Phrase.flatHeight : Phrase → Nat
  | term => 1
  | chain .and => 2
  | chain .or => 3

/-- A chain is flat one higher than its members are. -/
theorem Phrase.flatHeight_chain (c : Connective) :
    (Phrase.chain c).flatHeight = c.member.flatHeight + 1 := by
  cases c <;> rfl

/-- Each level of nesting adds at most two to the height of a phrase: a group is a term again, which may
be as high as a chain of chains one level below. -/
theorem Derives.height_le {p : Phrase} {tokens : List Token} {e : Expr} {depth : Nat}
    (h : Derives p tokens e depth) : e.height ≤ 2 * depth + p.flatHeight := by
  induction h with
  | compare | isNull | isNotNull => exact Nat.le_refl 1
  | @negation tokens e depth _ ih =>
    have hterm : e.height ≤ 2 * depth + 1 := ih
    change e.height + 1 ≤ 2 * (depth + 1) + 1
    omega
  | @group tokens e depth _ ih =>
    have hchain : e.height ≤ 2 * depth + 3 := ih
    change e.height ≤ 2 * (depth + 1) + 1
    omega
  | @single c tokens e depth _ ih =>
    rw [Phrase.flatHeight_chain]
    omega
  | @several c parts _ _ ih =>
    have hmembers : Expr.heightOfTerms (parts.map Part.expr) ≤
        2 * Part.deepest parts + c.member.flatHeight := by
      rw [Expr.heightOfTerms_le_iff, List.forall_mem_map]
      intro part hpart
      have hdepth := (Part.deepest_le_iff parts _).mp (Nat.le_refl _) part hpart
      have hheight := ih part hpart
      omega
    rw [Connective.height_join, Phrase.flatHeight_chain]
    omega

/-! ### The bound is reached -/

/-- A chain of a phrase and a predicate is one higher than the phrase, and nested as deep. -/
theorem Derives.exists_chain (c : Connective) {tokens : List Token} {e : Expr} {depth : Nat}
    (h : Derives c.member tokens e depth) :
    ∃ tokens' e', Derives (.chain c) tokens' e' depth ∧ e'.height = e.height + 1 := by
  have hpredicate : Derives c.member [.ident "a", .is, .null] (.isNull "a" true) 0 := by
    cases c with
    | and => exact .isNull "a"
    | or => exact .single (c := .and) (.isNull "a")
  have hpair := Derives.pair h hpredicate
  rw [Nat.max_zero] at hpair
  have hpositive : 1 ≤ e.height := by
    cases e <;> simp [Expr.height]
  refine ⟨_, _, hpair, ?_⟩
  rw [Connective.height_join]
  simp only [Expr.heightOfTerms, Expr.height]
  omega

/-- A term is two lower than some filter that is nested as deep. -/
theorem Derives.exists_filter {tokens : List Token} {e : Expr} {depth : Nat}
    (h : Derives .term tokens e depth) :
    ∃ tokens' e', Derives (.chain .or) tokens' e' depth ∧ e'.height = e.height + 2 := by
  obtain ⟨andTokens, conjunction, hand, handHeight⟩ := Derives.exists_chain .and h
  obtain ⟨orTokens, disjunction, hor, horHeight⟩ := Derives.exists_chain .or hand
  exact ⟨orTokens, disjunction, hor, by omega⟩

/-- For every nesting there is a term that is as high as terms of this nesting can be. -/
theorem Derives.exists_term_height_eq (depth : Nat) :
    ∃ tokens e, Derives .term tokens e depth ∧ e.height = 2 * depth + 1 := by
  induction depth with
  | zero => exact ⟨_, _, .isNull "a", rfl⟩
  | succ depth ih =>
    obtain ⟨tokens, e, hterm, hheight⟩ := ih
    obtain ⟨inner, filter, hfilter, hfilterHeight⟩ := hterm.exists_filter
    exact ⟨_, filter, .group hfilter, by omega⟩

/-- For every nesting there is a filter that is as high as filters of this nesting can be. -/
theorem Derives.exists_height_eq (depth : Nat) :
    ∃ tokens e, Derives (.chain .or) tokens e depth ∧ e.height = 2 * depth + 3 := by
  obtain ⟨tokens, e, hterm, hheight⟩ := Derives.exists_term_height_eq depth
  obtain ⟨filterTokens, filter, hfilter, hfilterHeight⟩ := hterm.exists_filter
  exact ⟨filterTokens, filter, hfilter, by omega⟩

/-! ### Evaluation -/

/-- Whether an expression holds, found out with at most the given number of evaluations inside one
another; nothing where that is too few. -/
def Expr.holdsWithin (read : String → Option Literal) : Nat → Expr → Option Bool
  | 0, _ => none
  | _ + 1, .compare name op literal => some (Literal.satisfies (read name) op literal)
  | _ + 1, .isNull name wanted => some ((read name).isNone == wanted)
  | limit + 1, .all terms => terms.allM (Expr.holdsWithin read limit)
  | limit + 1, .any terms => terms.anyM (Expr.holdsWithin read limit)
  | limit + 1, .not term => (Expr.holdsWithin read limit term).map (!·)

/-- Terms are evaluated one after another up to the first that does not hold. -/
theorem Expr.allM_eq {read : String → Option Literal} {holds : Expr → Option Bool} {terms : List Expr}
    (h : ∀ term ∈ terms, holds term = some (term.holds read)) :
    terms.allM holds = some (Expr.holdsAll read terms) := by
  induction terms with
  | nil => rfl
  | cons term rest ih =>
    obtain ⟨hterm, hrest⟩ := List.forall_mem_cons.mp h
    rw [List.allM, hterm, holdsAll, ih hrest]
    cases term.holds read <;> rfl

/-- Terms are evaluated one after another up to the first that holds. -/
theorem Expr.anyM_eq {read : String → Option Literal} {holds : Expr → Option Bool} {terms : List Expr}
    (h : ∀ term ∈ terms, holds term = some (term.holds read)) :
    terms.anyM holds = some (Expr.holdsAny read terms) := by
  induction terms with
  | nil => rfl
  | cons term rest ih =>
    obtain ⟨hterm, hrest⟩ := List.forall_mem_cons.mp h
    rw [List.anyM, hterm, holdsAny, ih hrest]
    cases term.holds read <;> rfl

/-- As many evaluations inside one another as an expression is high are enough. -/
theorem Expr.holdsWithin_eq (read : String → Option Literal) (e : Expr) (limit : Nat)
    (h : e.height ≤ limit) : e.holdsWithin read limit = some (e.holds read) := by
  have hsucc : ∀ {n limit : Nat}, n + 1 ≤ limit → ∃ below, limit = below + 1 ∧ n ≤ below :=
    fun {_ limit} hn => ⟨limit - 1, by omega, by omega⟩
  induction e using Expr.induction generalizing limit with
  | compare | isNull =>
    obtain ⟨below, rfl, -⟩ := hsucc h
    rfl
  | all terms ih =>
    obtain ⟨below, rfl, hbelow⟩ := hsucc h
    have hterms := (heightOfTerms_le_iff terms below).mp hbelow
    exact allM_eq fun term hterm => ih term hterm below (hterms term hterm)
  | any terms ih =>
    obtain ⟨below, rfl, hbelow⟩ := hsucc h
    have hterms := (heightOfTerms_le_iff terms below).mp hbelow
    exact anyM_eq fun term hterm => ih term hterm below (hterms term hterm)
  | not term ih =>
    obtain ⟨below, rfl, hbelow⟩ := hsucc h
    rw [holdsWithin, ih below hbelow, Option.map_some, holds]

/-- A text of any length that can be read as a filter denotes an expression of bounded height, and
evaluating it never takes more evaluations inside one another than the bound, whatever the names stand
for. -/
theorem height_le_of_parse (text : String) (e : Expr) (h : parse text = .ok e) :
    e.height ≤ 2 * maxNesting + 3 ∧ 2 * maxNesting + 3 = 259 ∧
      ∀ read, e.holdsWithin read (2 * maxNesting + 3) = some (e.holds read) := by
  obtain ⟨tokens, -, depth, hdepth, hderives⟩ := (parse_eq_ok_iff text e).mp h
  have hheight : e.height ≤ 2 * depth + 3 := hderives.height_le
  have hbound : e.height ≤ 2 * maxNesting + 3 := by omega
  exact ⟨hbound, rfl, fun read => e.holdsWithin_eq read _ hbound⟩

/-- A negated group of two chains. -/
theorem height_le_of_parse_negated_group :
    ∃ e, parse "NOT (a IS NULL AND b = 1 OR NOT c = 'x''y')" = .ok e ∧ e.height = 4 ∧
      e.height ≤ 259 ∧ ∀ read, e.holdsWithin read 259 = some (e.holds read) := by
  have hparse : parse "NOT (a IS NULL AND b = 1 OR NOT c = 'x''y')" =
      .ok (.not (.any [.all [.isNull "a" true, .compare "b" .eq (.number (.ofInt 1))],
        .not (.compare "c" .eq (.text "x'y"))])) := by with_unfolding_all rfl
  obtain ⟨hheight, -, hevaluation⟩ := height_le_of_parse _ _ hparse
  exact ⟨_, hparse, by decide, hheight, hevaluation⟩

end BrokerAdmin.Filter
