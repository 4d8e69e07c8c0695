import BrokerAdmin.Proofs.Subscription.Convention

/-!
# Canonical names of queues

More names can be decomposed than subscriptions are given: a backslash may escape a character that needs
no escape, and nothing may stand in front of the separator. What such a name is decomposed into belongs to
another queue. A canonical name has neither, and it is the name that its parts are given.

Whether the escapes of a name are necessary can be told of its parts one at a time, since a name may be cut
wherever an even run of backslashes ends.
-/

namespace BrokerAdmin.Subscription

/-- Every backslash that escapes stands in front of a character that needs it. -/
def NecessaryEscapes (chars : List Char) : Prop :=
  ∀ i, StandsAlone chars i '\\' → chars[i + 1]? = some '\\' ∨ chars[i + 1]? = some '.'

/-- A name without an empty client and without needless escapes. -/
structure Canonical (chars : List Char) : Prop where
  head_ne : chars.head? ≠ some '.'
  necessary : NecessaryEscapes chars

/-- Where a run of even length ends a text, no backslash at its end escapes. -/
theorem StandsAlone.succ_lt_length {front : List Char} {i : Nat} (h : StandsAlone front i '\\')
    (hfront : Even (endingRun front)) : i + 1 < front.length := by
  obtain ⟨hget, heven⟩ := h
  obtain ⟨hlt, hbackslash⟩ := List.getElem?_eq_some_iff.mp hget
  by_contra hlast
  have hfull : front = front.take i ++ ['\\'] := by
    rw [← hbackslash, ← List.take_succ_eq_append_getElem hlt, List.take_of_length_le (by omega)]
  rw [hfull, endingRun_concat_backslash, Nat.even_add_one] at hfront
  exact hfront heven

/-- The escapes of a text that is cut behind a run of even length are necessary in front and behind. -/
theorem necessaryEscapes_append {front : List Char} (hfront : Even (endingRun front))
    (rest : List Char) :
    NecessaryEscapes (front ++ rest) ↔ NecessaryEscapes front ∧ NecessaryEscapes rest := by
  have hbehind : ∀ i, (front ++ rest)[front.length + i + 1]? = rest[i + 1]? := by
    intro i
    rw [Nat.add_assoc, List.getElem?_append_right (Nat.le_add_right _ _), Nat.add_sub_cancel_left]
  constructor
  · intro h
    refine ⟨fun i hi => ?_, fun i hi => ?_⟩
    · have hlt := hi.succ_lt_length hfront
      have hnext := h i ((standsAlone_append_left rest (by omega) _).mpr hi)
      rwa [List.getElem?_append_left hlt] at hnext
    · have hnext := h (front.length + i) ((standsAlone_append_right hfront rest i _).mpr hi)
      rwa [hbehind] at hnext
  · rintro ⟨hnecessary, hrest⟩ i hi
    by_cases hlt : i < front.length
    · have hi := (standsAlone_append_left rest hlt _).mp hi
      rw [List.getElem?_append_left (hi.succ_lt_length hfront)]
      exact hnecessary i hi
    · obtain ⟨k, rfl⟩ := Nat.exists_eq_add_of_le (Nat.le_of_not_lt hlt)
      rw [hbehind]
      exact hrest k ((standsAlone_append_right hfront rest k _).mp hi)

/-- A plain character escapes nothing. -/
theorem necessaryEscapes_singleton {c : Char} (hc : c ≠ '\\') : NecessaryEscapes [c] := by
  rintro (_ | i) ⟨hget, -⟩
  · simp [hc] at hget
  · simp at hget

/-- A single escape is necessary if a backslash or a separator is escaped. -/
theorem necessaryEscapes_pair (c : Char) : NecessaryEscapes ['\\', c] ↔ c = '\\' ∨ c = '.' := by
  constructor
  · intro h
    simpa using h 0 ⟨rfl, by simp [endingRun]⟩
  · intro h i hi
    have hlt := hi.succ_lt_length (by rcases h with rfl | rfl <;> decide)
    obtain rfl : i = 0 := Nat.lt_one_iff.mp (Nat.lt_of_succ_lt_succ hlt)
    simpa using h

/-- What stands for a part is the part as it is escaped just when its escapes are necessary. -/
theorem Spells.escapeChars_eq_iff {chars part : List Char} (h : Spells chars part) :
    escapeChars part = chars ↔ NecessaryEscapes chars := by
  induction h with
  | nil => exact iff_of_true rfl fun i hi => by simp [StandsAlone] at hi
  | @plain c chars part hescape hseparator _ ih =>
    have hkept : escapeChar c = [c] := if_neg (not_or.mpr ⟨hescape, hseparator⟩)
    have hcut : NecessaryEscapes (c :: chars) ↔ NecessaryEscapes [c] ∧ NecessaryEscapes chars :=
      necessaryEscapes_append (by simp [endingRun, hescape] : Even (endingRun [c])) chars
    rw [escapeChars_cons, hkept, List.singleton_append, List.cons.injEq, ih, hcut]
    simp [necessaryEscapes_singleton hescape]
  | @escaped c chars part _ ih =>
    have hcut : NecessaryEscapes ('\\' :: c :: chars) ↔
        NecessaryEscapes ['\\', c] ∧ NecessaryEscapes chars :=
      necessaryEscapes_append (even_endingRun_escaped c) chars
    rw [escapeChars_cons, hcut, necessaryEscapes_pair, escapeChar]
    split
    next hneeded => simp [ih, hneeded]
    next hneedless =>
      refine iff_of_false (fun heq => ?_) fun hboth => hneedless hboth.1
      exact hneedless (Or.inl (List.cons.inj heq).1)

/-- What stands for a part does not begin with a separator. -/
theorem Spells.head?_ne {chars part : List Char} (h : Spells chars part) : chars.head? ≠ some '.' := by
  cases h with
  | nil => simp
  | plain _ hseparator _ => simpa using hseparator
  | escaped => simp

/-! ### Names -/

/-- The characters of the name that a client and a subscription are given. -/
def composed (client : Option (List Char)) (name : List Char) : List Char :=
  client.elim (escapeChars name) fun client => escapeChars client ++ '.' :: escapeChars name

/-- The characters of the name of a durable subscription's queue, shared or not. -/
theorem toList_durableQueueName_eq (client : Option String) (name : String) :
    (durableQueueName client name).toList = composed (client.map String.toList) name.toList := by
  cases client with
  | none => simp [durableQueueName, escape, composed]
  | some client => rw [toList_durableQueueName]; rfl

/-- Two parts are given the name that they were read from just when all its escapes are necessary. -/
theorem composed_parts_eq_iff {front rest client name : List Char} (hclient : Spells front client)
    (hname : Spells rest name) :
    composed (some client) name = front ++ '.' :: rest ↔ NecessaryEscapes (front ++ '.' :: rest) := by
  have hcut : NecessaryEscapes (front ++ '.' :: rest) ↔
      NecessaryEscapes front ∧ NecessaryEscapes rest := by
    rw [necessaryEscapes_append hclient.convention.2.1, ← List.singleton_append,
      necessaryEscapes_append (by decide), and_iff_right (necessaryEscapes_singleton (by decide))]
  rw [hcut, ← hclient.escapeChars_eq_iff, ← hname.escapeChars_eq_iff, composed, Option.elim_some]
  constructor
  · intro heq
    -- both sides are read alike, so they agree behind the separator, and hence in front of it
    have hread := hclient.component_separator rest
    rw [← heq, component_escapeChars_separator] at hread
    obtain rfl : escapeChars name = rest := by simpa using hread
    exact ⟨List.append_cancel_right heq, rfl⟩
  · rintro ⟨rfl, rfl⟩
    rfl

/-- What a name is decomposed into is given that name just when the name is canonical. -/
theorem composed_eq_iff {chars name : List Char} {client : Option (List Char)}
    (h : decomposeChars chars = .ok (client, name)) : composed client name = chars ↔ Canonical chars := by
  have hreads := reads_decomposeChars chars
  rw [h] at hreads
  cases hreads with
  | shared hname =>
    rw [composed, Option.elim_none, hname.escapeChars_eq_iff]
    exact ⟨fun hnecessary => ⟨hname.head?_ne, hnecessary⟩, Canonical.necessary⟩
  | @owned front rest client name hclient hname =>
    by_cases hempty : client.isEmpty
    · have hfront : front = [] := List.length_eq_zero_iff.mp (hclient.length_eq_zero_iff.mpr hempty)
      subst hfront
      rw [if_pos hempty]
      refine iff_of_false (fun heq => ?_) fun hcanonical => hcanonical.head_ne rfl
      apply (spells_escapeChars name).head?_ne
      rw [show escapeChars name = '.' :: rest from heq, List.head?_cons]
    · rw [if_neg hempty, composed_parts_eq_iff hclient hname]
      refine ⟨fun hnecessary => ⟨?_, hnecessary⟩, Canonical.necessary⟩
      cases hclient with
      | nil => simp at hempty
      | plain _ hseparator _ => simpa using hseparator
      | escaped => simp

/-- A shared subscription is told from the name of its queue. -/
theorem decompose_durableQueueName_shared (name : String) :
    decompose (durableQueueName none name) = .ok (none, name) := by
  have hchars : decomposeChars (durableQueueName none name).toList = .ok (none, name.toList) := by
    rw [toList_durableQueueName_eq, decomposeChars]
    change (component (escapeChars name.toList) >>= _) = _
    rw [component_escapeChars]
    rfl
  rw [decompose, hchars]
  simp

/-- No empty client is read from a name. -/
theorem ne_some_nil_of_decomposeChars {chars name : List Char} {client : Option (List Char)}
    (h : decomposeChars chars = .ok (client, name)) : client ≠ some [] := by
  have hreads := reads_decomposeChars chars
  rw [h] at hreads
  cases hreads with
  | shared => simp
  | owned =>
    split
    next => simp
    next hempty =>
      intro heq
      exact hempty (by rw [Option.some.inj heq, List.isEmpty_nil])

/-- What a name is decomposed into, if it can be decomposed, is given a name that is decomposed in the same
way; that is the same name just when it does not begin with a separator and each of its backslashes that is
not escaped stands in front of a backslash or a separator. -/
theorem durableQueueName_of_decompose {queueName name : String} {client : Option String}
    (h : decompose queueName = .ok (client, name)) :
    decompose (durableQueueName client name) = .ok (client, name) ∧
      (durableQueueName client name = queueName ↔ Canonical queueName.toList) := by
  unfold decompose at h
  split at h
  next client' name' hchars =>
    obtain ⟨rfl, rfl⟩ := Prod.mk.inj (Except.ok.inj h)
    constructor
    · cases client' with
      | none => exact decompose_durableQueueName_shared _
      | some client =>
        refine decompose_durableQueueName (fun hempty => ?_) _
        apply ne_some_nil_of_decomposeChars hchars
        rw [String.ofList_eq_empty_iff.mp hempty]
    · rw [← composed_eq_iff hchars, ← String.toList_inj, toList_durableQueueName_eq]
      simp [Function.comp_def]
  next => contradiction

/-- A needless escape leads to another name, and the names of the same parts are decomposed alike. -/
theorem durableQueueName_of_decompose_needless :
    decompose "a\\b\\.c.d" = .ok (some "ab.c", "d") ∧
      decompose (durableQueueName (some "ab.c") "d") = .ok (some "ab.c", "d") ∧
      durableQueueName (some "ab.c") "d" ≠ "a\\b\\.c.d" := by
  have hname : decompose "a\\b\\.c.d" = .ok (some "ab.c", "d") := by decide
  obtain ⟨hsame, hiff⟩ := durableQueueName_of_decompose hname
  refine ⟨hname, hsame, fun heq => ?_⟩
  have hnext := (hiff.mp heq).necessary 1 (by decide)
  revert hnext
  decide

end BrokerAdmin.Subscription
