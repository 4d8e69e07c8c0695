import BrokerAdmin.Proofs.Filter.Grammar

/-!
# Reading filters with a cursor

A filter may also be read by calls that share a cursor: a position in the tokens, which every token that is
taken moves on, also when there is none left, and the depth of the nesting, which is raised for what is
inside a negation or parentheses and lowered after it, whether it could be read or not. A walk keeps all
cursors that there have been, so that it shows where the cursor was in the middle of a call.

The calls are given a limit to how many of them are inside one another, where the further members of a chain
count as being inside it. A call has a result if it comes back within its limit, and has none if it would go
further or lowers a depth of zero. With a larger limit it has the same result.
-/

namespace BrokerAdmin.Filter

/-- A position in the tokens, and the depth of the nesting there. -/
structure Cursor where
  position : Nat
  depth : Nat
  deriving DecidableEq

/-- A cursor, and the cursors that there have been before, the latest first. -/
structure Walk where
  here : Cursor
  passed : List Cursor
  deriving DecidableEq

namespace Walk

/-- The walk after a step to a cursor. -/
def step (w : Walk) (c : Cursor) : Walk :=
  ⟨c, w.here :: w.passed⟩

/-- The walk after a token has been taken. -/
def advanced (w : Walk) : Walk :=
  w.step { w.here with position := w.here.position + 1 }

/-- The walk after the depth has been raised. -/
def raised (w : Walk) : Walk :=
  w.step { w.here with depth := w.here.depth + 1 }

/-- The walk after the depth has been lowered. -/
def lowered (w : Walk) : Walk :=
  w.step { w.here with depth := w.here.depth - 1 }

/-- The tokens from the position on. -/
def ahead (w : Walk) (tokens : List Token) : List Token :=
  tokens.drop w.here.position

variable {tokens : List Token} {w : Walk}

/-- There are as many tokens ahead as the position leaves. -/
theorem length_ahead (tokens : List Token) (w : Walk) :
    (w.ahead tokens).length = tokens.length - w.here.position :=
  List.length_drop

/-- The first token ahead is that at the position. -/
theorem head?_ahead (tokens : List Token) (w : Walk) :
    (w.ahead tokens).head? = tokens[w.here.position]? :=
  List.head?_drop

/-- What is behind a token is ahead once the token has been taken. -/
theorem ahead_advanced {token : Token} {rest : List Token} (h : w.ahead tokens = token :: rest) :
    w.advanced.ahead tokens = rest := by
  change tokens.drop (w.here.position + 1) = rest
  rw [← List.tail_drop]
  exact congrArg List.tail h

/-- A position with a token ahead is not at the end. -/
theorem position_lt {token : Token} {rest : List Token} (h : w.ahead tokens = token :: rest) :
    w.here.position < tokens.length := by
  have hlength := congrArg List.length h
  rw [length_ahead, List.length_cons] at hlength
  omega

end Walk

/-- A call on a walk, which comes back with an answer and the walk after it, or never. -/
abbrev Call (α : Type) := StateT Walk Option α

namespace Call

/-- The call that never comes back. -/
def never {α : Type} : Call α :=
  fun _ => none

/-- The token at the position, if there is one. -/
def peek (tokens : List Token) : Call (Option Token) :=
  fun w => some (tokens[w.here.position]?, w)

/-- Move on by one position. -/
def advance : Call Unit :=
  fun w => some ((), w.advanced)

/-- Take the token at the position; the position moves on even if there is none. -/
def next (tokens : List Token) : Call (Option Token) := do
  let token ← peek tokens
  advance
  return token

/-- Raise the depth, as far as nesting is allowed. -/
def enter : Call (Except Error Unit) := fun w =>
  if maxNesting ≤ w.here.depth then some (.error .nestedTooDeeply, w) else some (.ok (), w.raised)

/-- Lower the depth; there is nothing below zero. -/
def leave : Call Unit := fun w =>
  if w.here.depth = 0 then never w else some ((), w.lowered)

/-- Read the end of a predicate that wants a value to be missing, or not to be. -/
def absence (tokens : List Token) (name : String) (wanted : Bool) : Call (Except Error Expr) := do
  match ← next tokens with
  | some .null => return .ok (.isNull name wanted)
  | _ => return .error (.noNull name)

/-- Read the rest of a predicate whose name has been taken. -/
def predicate (tokens : List Token) (name : String) : Call (Except Error Expr) := do
  match ← next tokens with
  | some (.comparison op) =>
    let token ← next tokens
    match token.bind Literal.ofToken? with
    | some literal => return .ok (.compare name op literal)
    | none => return .error (.noLiteral name token)
  | some .is =>
    let negated := decide ((← peek tokens) = some .not)
    if negated then advance
    absence tokens name !negated
  | token => return .error (.noOperator name token)

mutual

/-- Add further members to a chain as long as the separator is ahead. -/
def links (tokens : List Token) (c : Connective) : Nat → List Expr → Call (Except Error (List Expr))
  | 0, _ => never
  | limit + 1, members => do
    if (← peek tokens) = some c.separator then
      advance
      match ← phrase tokens limit c.member with
      | .error e => return .error e
      | .ok e => links tokens c limit (members ++ [e])
    else return .ok members

/-- Read a phrase. -/
def phrase (tokens : List Token) : Nat → Phrase → Call (Except Error Expr)
  | 0, _ => never
  | limit + 1, .chain c => do
    match ← phrase tokens limit c.member with
    | .error e => return .error e
    | .ok first =>
      match ← links tokens c limit [first] with
      | .error e => return .error e
      | .ok [only] => return .ok only
      | .ok members => return .ok (c.join members)
  | limit + 1, .term => do
    match ← next tokens with
    | some .not =>
      match ← enter with
      | .error e => return .error e
      | .ok () =>
        let inner ← phrase tokens limit .term
        leave
        return inner.map .not
    | some .leftParen =>
      match ← enter with
      | .error e => return .error e
      | .ok () =>
        let inner ← phrase tokens limit (.chain .or)
        leave
        match inner with
        | .error e => return .error e
        | .ok e =>
          match ← next tokens with
          | some .rightParen => return .ok e
          | _ => return .error .unclosedParenthesis
    | some (.ident name) => predicate tokens name
    | token => return .error (.noIdentifier token)

end

/-! ### What the calls do -/

variable {α β : Type}

/-- A call that has come back goes on from where it is then. -/
theorem run_bind_of_eq {call : Call α} {w w' : Walk} {a : α} (h : call.run w = some (a, w'))
    (f : α → Call β) : (call >>= f).run w = (f a).run w' := by
  rw [StateT.run_bind, h]
  rfl

/-- Looking at the next token leaves the walk where it is. -/
theorem run_peek (tokens : List Token) (w : Walk) :
    (peek tokens).run w = some ((w.ahead tokens).head?, w) := by
  rw [Walk.head?_ahead]
  rfl

/-- Moving on always comes back. -/
theorem run_advance (w : Walk) : advance.run w = some ((), w.advanced) := rfl

/-- Taking a token gives the first one ahead, if there is one, and moves on. -/
theorem run_next (tokens : List Token) (w : Walk) :
    (next tokens).run w = some ((w.ahead tokens).head?, w.advanced) := by
  rw [Walk.head?_ahead]
  rfl

/-- Below the allowed nesting the depth is raised. -/
theorem run_enter_of_lt {w : Walk} (h : w.here.depth < maxNesting) :
    enter.run w = some (.ok (), w.raised) :=
  if_neg (Nat.not_le.mpr h)

/-- At the allowed nesting the depth is not raised, and that is an error. -/
theorem run_enter_of_le {w : Walk} (h : maxNesting ≤ w.here.depth) :
    enter.run w = some (.error .nestedTooDeeply, w) :=
  if_pos h

/-- A depth that was raised is lowered. -/
theorem run_leave {w : Walk} (h : 0 < w.here.depth) : leave.run w = some ((), w.lowered) :=
  if_neg (Nat.pos_iff_ne_zero.mp h)

/-! ### More calls inside one another -/

/-- Where a call comes back, another does so too, and with the same. -/
def Extends (call call' : Call α) : Prop :=
  ∀ w result, call.run w = some result → call'.run w = some result

/-- A call comes back where it does. -/
theorem Extends.refl (call : Call α) : Extends call call :=
  fun _ _ h => h

/-- What goes on after calls comes back more often when they do. -/
theorem Extends.bind {call call' : Call α} {next next' : α → Call β} (hcall : Extends call call')
    (hnext : ∀ a, Extends (next a) (next' a)) : Extends (call >>= next) (call' >>= next') := by
  intro w result h
  rw [StateT.run_bind] at h ⊢
  obtain ⟨⟨a, w'⟩, hrun, hresult⟩ := Option.bind_eq_some_iff.mp h
  rw [hcall w _ hrun]
  exact hnext a w' result hresult

/-- Calls at a limit agree with the calls at the next one, which go one call further. -/
theorem extends_succ (tokens : List Token) (limit : Nat) :
    (∀ p, Extends (phrase tokens limit p) (phrase tokens (limit + 1) p)) ∧
      ∀ c members, Extends (links tokens c limit members) (links tokens c (limit + 1) members) := by
  induction limit with
  | zero =>
    refine ⟨fun p w result h => ?_, fun c members w result h => ?_⟩
    · rw [phrase] at h
      exact nomatch h
    · rw [links] at h
      exact nomatch h
  | succ limit ih =>
    obtain ⟨hphrase, hlinks⟩ := ih
    refine ⟨fun p => ?_, fun c members => ?_⟩
    · cases p with
      | chain c =>
        rw [phrase, phrase]
        refine .bind (hphrase c.member) fun answer => ?_
        cases answer with
        | error e => exact .refl _
        | ok first => exact .bind (hlinks c [first]) fun _ => .refl _
      | term =>
        rw [phrase, phrase]
        refine .bind (.refl _) fun token => ?_
        split
        · refine .bind (.refl _) fun entered => ?_
          cases entered with
          | error e => exact .refl _
          | ok _ => exact .bind (hphrase .term) fun _ => .refl _
        · refine .bind (.refl _) fun entered => ?_
          cases entered with
          | error e => exact .refl _
          | ok _ => exact .bind (hphrase (.chain .or)) fun _ => .refl _
        · exact .refl _
        · exact .refl _
    · rw [links, links]
      refine .bind (.refl _) fun token => ?_
      split
      · refine .bind (.refl _) fun _ => .bind (hphrase c.member) fun answer => ?_
        cases answer with
        | error e => exact .refl _
        | ok e => exact hlinks c (members ++ [e])
      · exact .refl _

/-- A call that has come back within a limit comes back with the same within any larger one. -/
theorem phrase_extends (tokens : List Token) (p : Phrase) {limit limit' : Nat} (h : limit ≤ limit') :
    Extends (phrase tokens limit p) (phrase tokens limit' p) := by
  induction h with
  | refl => exact .refl _
  | step _ ih => exact fun w result hresult => (extends_succ tokens _).1 p w result (ih w result hresult)

end Call

end BrokerAdmin.Filter
