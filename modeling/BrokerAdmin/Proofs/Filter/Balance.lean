import BrokerAdmin.Proofs.Filter.Cursor
import BrokerAdmin.Proofs.Filter.Height

/-!
# The cursor comes back to its depth

Every call that reads a phrase comes back, with the answer of the reader that has an allowance in place of a
cursor. It leaves the depth as it found it, whatever the answer is. In between the depth is never below
what it was and never beyond the allowed nesting, and the position, which only moves on, is never more than
one beyond the end. A phrase that is read has at least one token.

What a call does to a walk is said by `Walk.Balances`, and how its answer agrees with a reading by `Returns`.
No more than three calls are inside one another without a token being taken, so the limit that a call needs is
bounded by the tokens ahead. Each kind of call is followed one call further, with what comes after a call
that has come back and what is nested told once; the induction on the limit is over all of them together.
-/

namespace BrokerAdmin.Filter

/-! ### Walks that come back to their depth -/

/-- Where a cursor may be during a call that starts at another. -/
def Cursor.Within (tokens : List Token) (start c : Cursor) : Prop :=
  (start.depth ≤ c.depth ∧ c.depth ≤ maxNesting) ∧
    start.position ≤ c.position ∧ c.position ≤ max start.position tokens.length + 1

/-- A call inside another that starts before the end stays where the other may be. -/
theorem Cursor.Within.trans {tokens : List Token} {start middle c : Cursor} (h : Within tokens start middle)
    (hposition : middle.position ≤ tokens.length) (h' : Within tokens middle c) : Within tokens start c := by
  unfold Within at *
  omega

/-- A walk leads to another that has only been, since then, where it may be during a call. -/
def Walk.Leads (tokens : List Token) (w w' : Walk) : Prop :=
  ∃ visited, w'.passed = visited ++ w.passed ∧ ∀ c ∈ w'.here :: visited, Cursor.Within tokens w.here c

/-- A walk leads to another at the same depth. -/
structure Walk.Balances (tokens : List Token) (w w' : Walk) : Prop where
  leads : w.Leads tokens w'
  depth_eq : w'.here.depth = w.here.depth

namespace Walk

variable {tokens : List Token} {w w' w'' : Walk}

namespace Leads

/-- A walk is where it may be during the call. -/
theorem here (h : w.Leads tokens w') : Cursor.Within tokens w.here w'.here := by
  obtain ⟨visited, -, hvisited⟩ := h
  exact hvisited _ List.mem_cons_self

/-- A walk may be led one step further, to where it may be during the call. -/
theorem step (h : w.Leads tokens w') {c : Cursor} (hc : Cursor.Within tokens w.here c) :
    w.Leads tokens (w'.step c) := by
  obtain ⟨visited, hpassed, hvisited⟩ := h
  refine ⟨w'.here :: visited, ?_, List.forall_mem_cons.mpr ⟨hc, hvisited⟩⟩
  change w'.here :: w'.passed = _
  rw [hpassed, List.cons_append]

/-- The depth may be raised as far as nesting is allowed. -/
theorem raised (h : w.Leads tokens w') (hdepth : w'.here.depth < maxNesting) :
    w.Leads tokens w'.raised := by
  obtain ⟨⟨hfrom, -⟩, hposition⟩ := h.here
  exact h.step ⟨⟨Nat.le_succ_of_le hfrom, hdepth⟩, hposition⟩

/-- The depth may be lowered again down to that at the start. -/
theorem lowered (h : w.Leads tokens w') (hdepth : w.here.depth < w'.here.depth) :
    w.Leads tokens w'.lowered := by
  obtain ⟨⟨-, hto⟩, hposition⟩ := h.here
  exact h.step ⟨⟨Nat.le_sub_one_of_lt hdepth, Nat.le_trans (Nat.sub_le _ 1) hto⟩, hposition⟩

/-- What a walk leads to before the end may lead on. -/
theorem trans (h : w.Leads tokens w') (hposition : w'.here.position ≤ tokens.length)
    (h' : w'.Leads tokens w'') : w.Leads tokens w'' := by
  have hhere := h.here
  obtain ⟨visited, hpassed, hvisited⟩ := h
  obtain ⟨visited', hpassed', hvisited'⟩ := h'
  refine ⟨visited' ++ visited, by rw [hpassed', hpassed, List.append_assoc], ?_⟩
  rw [← List.cons_append, List.forall_mem_append]
  refine ⟨fun c hc => hhere.trans hposition (hvisited' c hc), fun c hc => ?_⟩
  exact hvisited c (List.mem_cons_of_mem _ hc)

end Leads

namespace Balances

/-- A walk that does nothing is balanced. -/
theorem refl (h : w.here.depth ≤ maxNesting) : w.Balances tokens w :=
  ⟨⟨[], rfl, List.forall_mem_singleton.mpr ⟨⟨Nat.le_refl _, h⟩, Nat.le_refl _, by omega⟩⟩, rfl⟩

/-- A token may be taken wherever a call starts, even where there is none. -/
theorem taken (h : w.here.depth ≤ maxNesting) : w.Balances tokens w.advanced :=
  ⟨(refl h).leads.step ⟨⟨Nat.le_refl _, h⟩, Nat.le_succ _, Nat.succ_le_succ (Nat.le_max_left _ _)⟩, rfl⟩

/-- What is balanced goes on balanced before the end. -/
theorem trans (h : w.Balances tokens w') (hposition : w'.here.position ≤ tokens.length)
    (h' : w'.Balances tokens w'') : w.Balances tokens w'' :=
  ⟨h.leads.trans hposition h'.leads, h'.depth_eq.trans h.depth_eq⟩

/-- A token may be taken after what is balanced. -/
theorem advanced (h : w.Balances tokens w') (hposition : w'.here.position ≤ tokens.length) :
    w.Balances tokens w'.advanced :=
  h.trans hposition (taken h.leads.here.1.2)

/-- What is balanced between raising and lowering the depth is balanced as a whole. -/
theorem nested (hposition : w.here.position ≤ tokens.length) (hdepth : w.here.depth < maxNesting)
    (h : w.raised.Balances tokens w') : w.Balances tokens w'.lowered := by
  have hraised : w'.here.depth = w.here.depth + 1 := h.depth_eq
  have hleads : w.Leads tokens w' :=
    ((refl (Nat.le_of_lt hdepth)).leads.raised hdepth).trans hposition h.leads
  refine ⟨hleads.lowered (by omega), ?_⟩
  change w'.here.depth - 1 = w.here.depth
  omega

end Balances

end Walk

/-! ### Calls that agree with a reading -/

/-- A call comes back with the answer of a reading and leaves a balanced walk. Where there is something
read, its tokens are behind the walk, which has come at least to a given position and not beyond the end. -/
inductive Returns {α : Type} (tokens : List Token) (w : Walk) (least : Nat) :
    Option (Except Error α × Walk) → Except Error (α × List Token) → Prop
  | ok {a : α} {w' : Walk} {rest : List Token} : w.Balances tokens w' → least ≤ w'.here.position →
      w'.here.position ≤ tokens.length → w'.ahead tokens = rest →
        Returns tokens w least (some (.ok a, w')) (.ok (a, rest))
  | error {e : Error} {w' : Walk} : w.Balances tokens w' →
      Returns tokens w least (some (.error e, w')) (.error e)

namespace Returns

variable {α β : Type} {tokens : List Token} {w w' : Walk} {least least' : Nat}

/-- A call may be seen from a walk before it. -/
theorem after {result : Option (Except Error α × Walk)} {reading : Except Error (α × List Token)}
    (h : Returns tokens w' least' result reading) (hbalances : w.Balances tokens w')
    (hposition : w'.here.position ≤ tokens.length) (hleast : least ≤ least') :
    Returns tokens w least result reading := by
  cases h with
  | ok hbalances' hfrom hto hrest =>
    exact .ok (hbalances.trans hposition hbalances') (Nat.le_trans hleast hfrom) hto hrest
  | error hbalances' => exact .error (hbalances.trans hposition hbalances')

/-- What comes after a call that has come back is told for either answer. -/
theorem bind {call : Call (Except Error α)} {next : Except Error α → Call (Except Error β)}
    {reading : Except Error (α × List Token)} {reading' : Except Error (β × List Token)}
    (h : Returns tokens w' least' (call.run w') reading)
    (hok : ∀ a w'', w'.Balances tokens w'' → least' ≤ w''.here.position →
      w''.here.position ≤ tokens.length → reading = .ok (a, w''.ahead tokens) →
        Returns tokens w least ((next (.ok a)).run w'') reading')
    (herror : ∀ e w'', w'.Balances tokens w'' → reading = .error e →
      Returns tokens w least ((next (.error e)).run w'') reading') :
    Returns tokens w least ((call >>= next).run w') reading' := by
  generalize hrun : call.run w' = result at h
  cases h with
  | ok hbalances hfrom hto hrest =>
    rw [Call.run_bind_of_eq hrun]
    exact hok _ _ hbalances hfrom hto (by rw [hrest])
  | error hbalances =>
    rw [Call.run_bind_of_eq hrun]
    exact herror _ _ hbalances rfl

end Returns

/-- The calls for a phrase agree with its readings at a limit, if the tokens ahead leave room for them and the
depth and the allowance make up the allowed nesting. -/
def Follows (tokens : List Token) (limit : Nat) (p : Phrase) : Prop :=
  ∀ (w : Walk) (allowance : Nat), w.here.depth + allowance = maxNesting →
    3 * (w.ahead tokens).length + p.flatHeight ≤ limit →
      Returns tokens w (w.here.position + 1) ((Call.phrase tokens limit p).run w)
        (p.read allowance (w.ahead tokens))

/-- The same for the members after the first one of a chain, which are read with a bound of their own and come
behind those that there are. -/
def FollowsLinks (tokens : List Token) (limit : Nat) (c : Connective) : Prop :=
  ∀ (w : Walk) (allowance bound : Nat) (members : List Expr), w.here.depth + allowance = maxNesting →
    w.here.position ≤ tokens.length → 3 * (w.ahead tokens).length < limit →
      (w.ahead tokens).length ≤ bound →
        Returns tokens w w.here.position ((Call.links tokens c limit members).run w)
          ((links c.separator (c.member.read allowance) bound (w.ahead tokens)).map
            fun (more, rest) => (members ++ more, rest))

/-- From a phrase down to its first token there are one, two or three calls. -/
theorem Phrase.flatHeight_range (p : Phrase) : 0 < p.flatHeight ∧ p.flatHeight ≤ 3 := by
  match p with
  | .term | .chain .and | .chain .or => decide

variable {tokens : List Token}

/-! ### Predicates -/

/-- What follows `is` must be `null` or `not`. -/
theorem predicate_is_eq_error {name : String} {rest : List Token} (hnot : rest.head? ≠ some .not)
    (hnull : rest.head? ≠ some .null) : predicate name (.is :: rest) = .error (.noNull name) := by
  cases rest with
  | nil => rfl
  | cons token rest =>
    cases token with
    | not => exact absurd rfl hnot
    | null => exact absurd rfl hnull
    | _ => rfl

/-- What follows `is not` must be `null`. -/
theorem predicate_is_not_eq_error {name : String} {rest : List Token} (hnull : rest.head? ≠ some .null) :
    predicate name (.is :: .not :: rest) = .error (.noNull name) := by
  cases rest with
  | nil => rfl
  | cons token rest =>
    cases token with
    | null => exact absurd rfl hnull
    | _ => rfl

/-- The end of a predicate that wants a value to be missing, or not to be, agrees with a reading that looks
for `null` too. -/
theorem absence_returns {name : String} {wanted : Bool} {w : Walk} {reading : Reading}
    (hdepth : w.here.depth ≤ maxNesting)
    (hnull : ∀ rest, w.ahead tokens = .null :: rest → reading = .ok (.isNull name wanted, rest))
    (hother : (w.ahead tokens).head? ≠ some .null → reading = .error (.noNull name)) :
    Returns tokens w (w.here.position + 1) ((Call.absence tokens name wanted).run w) reading := by
  have htaken : w.Balances tokens w.advanced := .taken hdepth
  unfold Call.absence
  rw [Call.run_bind_of_eq (Call.run_next tokens w)]
  by_cases hhead : (w.ahead tokens).head? = some .null
  · obtain ⟨rest, hahead⟩ := List.head?_eq_some_iff.mp hhead
    rw [hhead, hnull rest hahead]
    exact .ok htaken (Nat.le_refl _) (Walk.position_lt hahead) (Walk.ahead_advanced hahead)
  · rw [hother hhead]
    split
    next hnull => exact absurd hnull hhead
    next => exact .error htaken

/-- The rest of a predicate agrees with its reading. -/
theorem predicate_returns (name : String) (w : Walk) (hdepth : w.here.depth ≤ maxNesting) :
    Returns tokens w (w.here.position + 1) ((Call.predicate tokens name).run w)
      (predicate name (w.ahead tokens)) := by
  have htaken : w.Balances tokens w.advanced := .taken hdepth
  unfold Call.predicate
  rw [Call.run_bind_of_eq (Call.run_next tokens w)]
  cases hahead : w.ahead tokens with
  | nil => exact .error htaken
  | cons token rest =>
    have hrest := Walk.ahead_advanced hahead
    have hposition : w.advanced.here.position ≤ tokens.length := Walk.position_lt hahead
    have htwo : w.Balances tokens w.advanced.advanced := htaken.advanced hposition
    cases token with
    | comparison op =>
      dsimp only [List.head?_cons]
      rw [Call.run_bind_of_eq (Call.run_next tokens _), hrest]
      cases rest with
      | nil => exact .error htwo
      | cons second rest =>
        have hend := Walk.position_lt hrest
        dsimp only [List.head?_cons, Option.bind_some, predicate, comparisonWith]
        cases Literal.ofToken? second with
        | none => exact .error htwo
        | some literal => exact .ok htwo (Nat.le_succ _) hend (Walk.ahead_advanced hrest)
    | is =>
      dsimp only [List.head?_cons]
      rw [Call.run_bind_of_eq (Call.run_peek tokens _), hrest]
      by_cases hnot : rest.head? = some .not
      · obtain ⟨rest, rfl⟩ := List.head?_eq_some_iff.mp hnot
        have hend : w.advanced.advanced.here.position ≤ tokens.length := Walk.position_lt hrest
        have hsecond := Walk.ahead_advanced hrest
        have hleast : w.here.position + 1 ≤ w.advanced.advanced.here.position + 1 :=
          Nat.le_add_right _ 2
        rw [hnot, decide_eq_true rfl]
        refine Returns.after (absence_returns hdepth ?_ ?_) htwo hend hleast
        · intro after hafter
          rw [← hsecond, hafter]
          rfl
        · rw [hsecond]
          exact predicate_is_not_eq_error
      · rw [decide_eq_false hnot]
        refine Returns.after (absence_returns hdepth ?_ ?_) htaken hposition (Nat.le_succ _)
        · intro after hafter
          rw [← hrest, hafter]
          rfl
        · rw [hrest]
          exact predicate_is_eq_error hnot
    | _ => exact .error htaken

/-! ### Chains -/

/-- A chain ends where no separator is ahead. -/
theorem links_of_head?_ne {separator : Token} {read : List Token → Reading} (bound : Nat)
    {tokens : List Token} (h : tokens.head? ≠ some separator) :
    links separator read bound tokens = .ok ([], tokens) := by
  cases bound with
  | zero => rfl
  | succ bound =>
    cases tokens with
    | nil => rfl
    | cons token rest => exact if_neg fun heq => h (congrArg some heq)

/-- Where a separator is ahead there is another member, and else the chain ends. -/
theorem links_follows {c : Connective} {limit : Nat} (hmember : Follows tokens limit c.member)
    (hlinks : FollowsLinks tokens limit c) : FollowsLinks tokens (limit + 1) c := by
  intro w allowance bound members hdepth hposition hlimit hbound
  rw [Call.links, Call.run_bind_of_eq (Call.run_peek tokens w)]
  by_cases hhead : (w.ahead tokens).head? = some c.separator
  · obtain ⟨rest, hahead⟩ := List.head?_eq_some_iff.mp hhead
    obtain rfl : w.advanced.ahead tokens = rest := Walk.ahead_advanced hahead
    have hlt := Walk.position_lt hahead
    have htaken : w.Balances tokens w.advanced := .taken (by omega)
    rw [hahead, List.length_cons] at hlimit hbound
    obtain ⟨bound, rfl⟩ := Nat.exists_eq_add_one_of_ne_zero (Nat.ne_zero_of_lt hbound)
    have hroom : 3 * (w.advanced.ahead tokens).length + c.member.flatHeight ≤ limit := by
      have hflat := (Phrase.chain c).flatHeight_range.2
      rw [Phrase.flatHeight_chain] at hflat
      omega
    rw [if_pos hhead, hahead, links, if_pos rfl, Call.run_bind_of_eq (Call.run_advance w)]
    refine Returns.bind (hmember w.advanced allowance hdepth hroom) ?_ ?_
    · intro e w' hbalances hfrom hto hread
      have hfrom' : w.here.position + 1 + 1 ≤ w'.here.position := hfrom
      have hdepth' : w'.here.depth + allowance = maxNesting := hbalances.depth_eq ▸ hdepth
      have hshorter : (w'.ahead tokens).length ≤ (w.advanced.ahead tokens).length := by
        rw [Walk.length_ahead, Walk.length_ahead]
        exact Nat.sub_le_sub_left (Nat.le_of_succ_le hfrom) _
      have hlater : Returns tokens w w.here.position _ _ :=
        (hlinks w' allowance bound (members ++ [e]) hdepth' hto (by omega) (by omega)).after
          (htaken.trans hlt hbalances) hto (by omega)
      rw [hread]
      dsimp only
      cases hmore : links c.separator (c.member.read allowance) bound (w'.ahead tokens) with
      | error e => simpa [hmore, Except.map] using hlater
      | ok p => simpa [hmore, Except.map] using hlater
    · intro e w' hbalances hread
      rw [hread]
      exact .error (htaken.trans hlt hbalances)
  · rw [if_neg hhead, links_of_head?_ne _ hhead]
    dsimp only [Except.map]
    rw [List.append_nil]
    exact .ok (.refl (by omega)) (Nat.le_refl _) hposition rfl

/-- A chain is read as its first member and the others are. -/
theorem chain_follows {c : Connective} {limit : Nat} (hmember : Follows tokens limit c.member)
    (hlinks : FollowsLinks tokens limit c) : Follows tokens (limit + 1) (.chain c) := by
  intro w allowance hdepth hlimit
  rw [Phrase.flatHeight_chain] at hlimit
  rw [Phrase.read_chain, chain, Call.phrase]
  refine Returns.bind (hmember w allowance hdepth (Nat.le_of_succ_le_succ hlimit)) ?_ ?_
  · intro first w' hbalances hfrom hto hread
    have hdepth' : w'.here.depth + allowance = maxNesting := hbalances.depth_eq ▸ hdepth
    have hroom : 3 * (w'.ahead tokens).length < limit := by
      rw [Walk.length_ahead] at hlimit ⊢
      have hflat := c.member.flatHeight_range.1
      omega
    rw [hread]
    refine Returns.bind (hlinks w' allowance _ [first] hdepth' hto hroom (Nat.le_refl _)) ?_ ?_
    · intro members w'' hbalances' hfrom' hto' hmembers
      obtain ⟨⟨more, rest⟩, hmore, heq⟩ := map_eq_ok_iff.mp hmembers
      cases heq
      dsimp only
      rw [hmore]
      cases more <;> exact .ok (hbalances.trans hto hbalances') (Nat.le_trans hfrom hfrom') hto' rfl
    · intro e w'' hbalances' herror
      dsimp only
      rw [map_eq_error_iff.mp herror]
      exact .error (hbalances.trans hto hbalances')
  · intro e w' hbalances hread
    rw [hread]
    exact .error hbalances

/-! ### Nesting -/

/-- A nested call starts one deeper if the allowance admits it, and the depth is lowered before its answer is
looked at. -/
theorem nested_returns {p : Phrase} {limit allowance : Nat} (hinner : Follows tokens limit p) {w : Walk}
    (hposition : w.here.position ≤ tokens.length) (hdepth : w.here.depth + allowance = maxNesting)
    (hlimit : 3 * (w.ahead tokens).length + p.flatHeight ≤ limit)
    {next : Except Error Expr → Call (Except Error Expr)} {reading : Reading}
    (hdeep : allowance = 0 → reading = .error .nestedTooDeeply)
    (hok : ∀ below e w', allowance = below + 1 → w.Balances tokens w' →
      w.here.position + 1 ≤ w'.here.position → w'.here.position ≤ tokens.length →
        p.read below (w.ahead tokens) = .ok (e, w'.ahead tokens) →
          Returns tokens w w.here.position ((next (.ok e)).run w') reading)
    (herror : ∀ below e w', allowance = below + 1 → w.Balances tokens w' →
      p.read below (w.ahead tokens) = .error e →
        Returns tokens w w.here.position ((next (.error e)).run w') reading) :
    Returns tokens w w.here.position
      ((do
        match ← Call.enter with
        | .error e => return .error e
        | .ok () =>
          let inner ← Call.phrase tokens limit p
          Call.leave
          next inner : Call (Except Error Expr)).run w) reading := by
  cases allowance with
  | zero =>
    rw [Call.run_bind_of_eq (Call.run_enter_of_le (Nat.le_of_eq hdepth.symm)), hdeep rfl]
    exact .error (.refl (Nat.le_of_eq hdepth))
  | succ below =>
    have hlt : w.here.depth < maxNesting := by omega
    have hraised : w.raised.here.depth + below = maxNesting := by
      change w.here.depth + 1 + below = maxNesting
      omega
    have hpositive : ∀ w', w.raised.Balances tokens w' → 0 < w'.here.depth := by
      intro w' hbalances
      rw [hbalances.depth_eq]
      exact Nat.succ_pos _
    rw [Call.run_bind_of_eq (Call.run_enter_of_lt hlt)]
    refine Returns.bind (hinner w.raised below hraised hlimit) ?_ ?_
    · intro e w' hbalances hfrom hto hread
      rw [Call.run_bind_of_eq (Call.run_leave (hpositive w' hbalances))]
      exact hok below e w'.lowered rfl (.nested hposition hlt hbalances) hfrom hto hread
    · intro e w' hbalances hread
      rw [Call.run_bind_of_eq (Call.run_leave (hpositive w' hbalances))]
      exact herror below e w'.lowered rfl (.nested hposition hlt hbalances) hread

/-- A term is read as the phrase inside it is. -/
theorem term_follows {limit : Nat} (hinner : ∀ p, Follows tokens limit p) :
    Follows tokens (limit + 1) .term := by
  intro w allowance hdepth hlimit
  have hdepth' : w.here.depth ≤ maxNesting := by omega
  have htaken : w.Balances tokens w.advanced := .taken hdepth'
  rw [Call.phrase, Call.run_bind_of_eq (Call.run_next tokens w)]
  cases hahead : w.ahead tokens with
  | nil => cases allowance <;> exact .error htaken
  | cons token rest =>
    have hposition : w.advanced.here.position ≤ tokens.length := Walk.position_lt hahead
    obtain rfl : w.advanced.ahead tokens = rest := Walk.ahead_advanced hahead
    have hroom : ∀ p : Phrase, 3 * (w.advanced.ahead tokens).length + p.flatHeight ≤ limit := by
      intro p
      have hflat := p.flatHeight_range.2
      change 3 * (w.ahead tokens).length + 1 ≤ limit + 1 at hlimit
      rw [hahead, List.length_cons] at hlimit
      omega
    cases token with
    | ident name =>
      have hname : Phrase.term.read allowance (.ident name :: w.advanced.ahead tokens) =
          predicate name (w.advanced.ahead tokens) := by
        cases allowance <;> rfl
      rw [hname]
      exact (predicate_returns name w.advanced hdepth').after htaken hposition (Nat.le_succ _)
    | not =>
      refine (nested_returns (hinner .term) hposition hdepth (hroom _) ?_ ?_ ?_).after htaken hposition
        (Nat.le_refl _)
      · rintro rfl
        rfl
      · rintro below e w' rfl hbalances hfrom hto hread
        have hterm : term below (w.advanced.ahead tokens) = .ok (e, w'.ahead tokens) := hread
        rw [Phrase.read, term, hterm]
        exact .ok hbalances (Nat.le_of_succ_le hfrom) hto rfl
      · rintro below e w' rfl hbalances hread
        have hterm : term below (w.advanced.ahead tokens) = .error e := hread
        rw [Phrase.read, term, hterm]
        exact .error hbalances
    | leftParen =>
      refine (nested_returns (hinner (.chain .or)) hposition hdepth (hroom _) ?_ ?_ ?_).after htaken
        hposition (Nat.le_refl _)
      · rintro rfl
        rfl
      · rintro below e w' rfl hbalances hfrom hto hread
        have hinside : disjunction (term below) (w.advanced.ahead tokens) = .ok (e, w'.ahead tokens) := hread
        have hclosed := hbalances.advanced hto
        rw [Phrase.read, term, group, hinside]
        dsimp only
        rw [Call.run_bind_of_eq (Call.run_next tokens w')]
        cases hend : w'.ahead tokens with
        | nil => exact .error hclosed
        | cons token rest =>
          cases token with
          | rightParen =>
            exact .ok hclosed (Nat.le_succ_of_le (Nat.le_of_succ_le hfrom)) (Walk.position_lt hend)
              (Walk.ahead_advanced hend)
          | _ => exact .error hclosed
      · rintro below e w' rfl hbalances hread
        have hinside : disjunction (term below) (w.advanced.ahead tokens) = .error e := hread
        rw [Phrase.read, term, group, hinside]
        exact .error hbalances
    | _ => cases allowance <;> exact .error htaken

/-! ### Phrases -/

/-- Every phrase, and every rest of a chain, is read as it should be. -/
theorem phrase_and_links_follow (tokens : List Token) (limit : Nat) :
    (∀ p, Follows tokens limit p) ∧ ∀ c, FollowsLinks tokens limit c := by
  induction limit with
  | zero =>
    refine ⟨fun p w allowance _ hlimit => ?_, fun c w _ _ _ _ _ hlimit => ?_⟩
    · have hflat := p.flatHeight_range.1
      omega
    · exact absurd hlimit (Nat.not_lt_zero _)
  | succ limit ih =>
    obtain ⟨hphrase, hlinks⟩ := ih
    refine ⟨fun p => ?_, fun c => links_follows (hphrase c.member) (hlinks c)⟩
    cases p with
    | term => exact term_follows hphrase
    | chain c => exact chain_follows (hphrase c.member) (hlinks c)

/-- A call that reads a phrase comes back, from any position and any depth that is allowed: three calls inside
one another for each token ahead, and three more, are always enough, and a larger limit makes no difference. The
depth is then what it was, both after an expression and after an error. All the while it has been neither less
nor more than allowed, and the position has not gone back nor more than one beyond the end. An expression has
at least one token and ends where the tokens do or before. The answer is that of the reading whose
allowance is what the depth leaves of the allowed nesting. -/
theorem phrase_call_balanced (tokens : List Token) (p : Phrase) (position depth : Nat)
    (hdepth : depth ≤ maxNesting) (passed : List Cursor) :
    ∃ answer after visited,
      (∀ limit, 3 * (tokens.length - position) + 3 ≤ limit →
        (Call.phrase tokens limit p).run ⟨⟨position, depth⟩, passed⟩ =
          some (answer, ⟨after, visited ++ passed⟩)) ∧
      after.depth = depth ∧
      (∀ c ∈ after :: visited, (depth ≤ c.depth ∧ c.depth ≤ maxNesting) ∧
        position ≤ c.position ∧ c.position ≤ max position tokens.length + 1) ∧
      (∀ e, answer = .ok e → position < after.position ∧ after.position ≤ tokens.length) ∧
      p.read (maxNesting - depth) (tokens.drop position) =
        answer.map fun e => (e, tokens.drop after.position) := by
  have hroom : 3 * (tokens.drop position).length + p.flatHeight ≤ 3 * (tokens.length - position) + 3 := by
    rw [List.length_drop]
    exact Nat.add_le_add_left p.flatHeight_range.2 _
  have hreturns := (phrase_and_links_follow tokens _).1 p ⟨⟨position, depth⟩, passed⟩ (maxNesting - depth)
    (Nat.add_sub_cancel' hdepth) hroom
  have hlarger : ∀ limit, 3 * (tokens.length - position) + 3 ≤ limit → ∀ result,
      (Call.phrase tokens (3 * (tokens.length - position) + 3) p).run ⟨⟨position, depth⟩, passed⟩ =
        some result → (Call.phrase tokens limit p).run ⟨⟨position, depth⟩, passed⟩ = some result :=
    fun limit hlimit => Call.phrase_extends tokens p hlimit ⟨⟨position, depth⟩, passed⟩
  change Returns tokens _ (position + 1) _ (p.read (maxNesting - depth) (tokens.drop position)) at hreturns
  generalize p.read (maxNesting - depth) (tokens.drop position) = reading at hreturns ⊢
  generalize (Call.phrase tokens (3 * (tokens.length - position) + 3) p).run _ = result at hreturns hlarger
  cases hreturns with
  | @ok e w' rest hbalances hfrom hto hrest =>
    obtain ⟨⟨visited, hpassed, hvisited⟩, hdepth'⟩ := hbalances
    refine ⟨.ok e, w'.here, visited, fun limit hlimit => ?_, hdepth', hvisited, fun _ _ => ⟨hfrom, hto⟩, ?_⟩
    · rw [← hpassed]
      exact hlarger limit hlimit _ rfl
    · rw [← hrest]
      rfl
  | @error e w' hbalances =>
    obtain ⟨⟨visited, hpassed, hvisited⟩, hdepth'⟩ := hbalances
    refine ⟨.error e, w'.here, visited, fun limit hlimit => ?_, hdepth', hvisited, nofun, rfl⟩
    rw [← hpassed]
    exact hlarger limit hlimit _ rfl

/-- One level is left, and a second one is refused inside parentheses; the depth is as before. -/
theorem phrase_call_balanced_too_deep :
    127 ≤ maxNesting ∧ ∃ after visited,
      (∀ limit, 21 ≤ limit →
        (Call.phrase [.leftParen, .not, .ident "a", .is, .null, .rightParen] limit (.chain .or)).run
          ⟨⟨0, 127⟩, []⟩ = some (.error .nestedTooDeeply, ⟨after, visited⟩)) ∧
        after.depth = 127 ∧ ∀ c ∈ after :: visited, (127 ≤ c.depth ∧ c.depth ≤ 128) ∧ c.position ≤ 7 := by
  obtain ⟨answer, after, visited, hrun, hdepth, hvisited, -, hread⟩ :=
    phrase_call_balanced [.leftParen, .not, .ident "a", .is, .null, .rightParen] (.chain .or) 0 127
      (by decide) []
  have herror : answer = .error .nestedTooDeeply := map_eq_error_iff.mp hread.symm
  rw [herror, List.append_nil] at hrun
  exact ⟨by decide, after, visited, hrun, hdepth, fun c hc => ⟨(hvisited c hc).1, (hvisited c hc).2.2⟩⟩

end BrokerAdmin.Filter
