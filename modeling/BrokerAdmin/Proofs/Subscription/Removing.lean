import BrokerAdmin.Proofs.Broker.Conservation
import BrokerAdmin.Proofs.Filter.Joining
import BrokerAdmin.Proofs.Selector.Faithful
import BrokerAdmin.Subscription.Admin

/-!
# What removing messages from an address removes

The messages that a selector selects are removed from one queue of an address after the other, the
placeholder among them. Only messages that wait are looked at; those in delivery stay. The answer is the
number of messages that are gone.

The first queue on which the removal fails ends it: the queues before it have lost what was selected, and
it is told how many messages that was; that queue and those after it are as they were. A removal fails on a
queue where this has been arranged, and on every queue when the selector is no filter.
-/

namespace BrokerAdmin

namespace Queue

/-- The queue without the waiting messages that a filter accepts. -/
def purged (q : Queue) (selected : Option Filter.Expr) : Queue :=
  { q with messages := q.messages.filter fun m => !Filter.accepts selected m }

/-- How many of the waiting messages a filter accepts. -/
def matching (q : Queue) (selected : Option Filter.Expr) : Nat :=
  (q.messages.filter (Filter.accepts selected)).length

/-- Nothing is left to be purged from a queue that has been. -/
theorem purged_purged (q : Queue) (selected : Option Filter.Expr) :
    (q.purged selected).purged selected = q.purged selected := by
  simp [purged]

/-- Nothing that a filter accepts waits in a queue that has been purged of it. -/
theorem matching_purged (q : Queue) (selected : Option Filter.Expr) :
    (q.purged selected).matching selected = 0 := by
  simp [purged, matching]

/-- A queue holds as many messages less as were purged from it. -/
theorem length_held_purged (q : Queue) (selected : Option Filter.Expr) :
    (q.purged selected).held.length + q.matching selected = q.held.length := by
  have hsplit := List.length_eq_length_filter_add (l := q.messages) (Filter.accepts selected)
  simp only [held, purged, matching, List.length_append]
  omega

end Queue

namespace Broker

/-- The broker with several queues purged of what a filter accepts. -/
def purged (b : Broker) (selected : Option Filter.Expr) (names : List String) : Broker :=
  { b with
    queues := b.queues.mapEntries fun name q => if name ∈ names then q.purged selected else q }

/-- How many messages wait in several queues that a filter accepts. -/
def matching (b : Broker) (selected : Option Filter.Expr) (names : List String) : Nat :=
  (names.map fun name => ((b.queues.get? name).map (·.matching selected)).getD 0).sum

variable {b : Broker} {selected : Option Filter.Expr} {names names' : List String}

/-- Which queues there are stays, and those that are not purged stay as they are. -/
@[simp] theorem get?_purged (b : Broker) (selected : Option Filter.Expr) (names : List String)
    (name : String) : (b.purged selected names).queues.get? name =
      (b.queues.get? name).map fun q => if name ∈ names then q.purged selected else q :=
  Catalog.get?_mapEntries _ _ _

/-- Nothing changes when no queue is purged. -/
theorem purged_nil (b : Broker) (selected : Option Filter.Expr) : b.purged selected [] = b := by
  have hqueues : (b.purged selected []).queues = b.queues := Catalog.ext_get? fun name => by simp
  exact congrArg (fun queues => { b with queues := queues }) hqueues

/-- Queues may be purged in several steps. -/
theorem purged_append (b : Broker) (selected : Option Filter.Expr) (names names' : List String) :
    (b.purged selected names).purged selected names' = b.purged selected (names ++ names') := by
  have hqueues : ((b.purged selected names).purged selected names').queues =
      (b.purged selected (names ++ names')).queues := by
    refine Catalog.ext_get? fun name => ?_
    simp only [get?_purged, Option.map_map]
    refine congrArg (Option.map · _) (funext fun q => ?_)
    by_cases hfirst : name ∈ names <;> by_cases hsecond : name ∈ names' <;>
      simp [hfirst, hsecond, Queue.purged_purged]
  exact congrArg (fun queues => { b with queues := queues }) hqueues

/-- What a filter accepts is counted queue by queue. -/
theorem matching_cons {name : String} {q : Queue} (hq : b.queues.get? name = some q)
    (selected : Option Filter.Expr) (names : List String) :
    b.matching selected (name :: names) = q.matching selected + b.matching selected names := by
  simp [matching, hq]

/-- Purging some queues takes nothing from others. -/
theorem matching_purged_of_disjoint (h : ∀ name ∈ names', name ∉ names) :
    (b.purged selected names).matching selected names' = b.matching selected names' := by
  unfold matching
  refine congrArg List.sum (List.map_congr_left fun name hname => ?_)
  simp [h name hname]

/-- Nothing that a filter accepts waits in queues that have been purged of it. -/
theorem matching_purged_self (b : Broker) (selected : Option Filter.Expr) (names : List String) :
    (b.purged selected names).matching selected names = 0 := by
  refine List.sum_eq_zero fun count hcount => ?_
  obtain ⟨name, hname, rfl⟩ := List.mem_map.mp hcount
  cases hq : b.queues.get? name <;> simp [hq, hname, Queue.matching_purged]

/-- A broker holds as many messages less as were purged from its queues. -/
theorem messageTotal_purged (b : Broker) (selected : Option Filter.Expr) (hnodup : names.Nodup)
    (hsubset : names ⊆ b.queues.names) :
    ∃ total, (b.purged selected names).messageTotal = .ok total ∧
      b.messageTotal = .ok (total + b.matching selected names) := by
  refine ⟨_, messageTotal_eq _, ?_⟩
  have hqueue : ∀ entry : String × Queue, entry.2.held.length =
      (if entry.1 ∈ names then entry.2.purged selected else entry.2).held.length +
        if entry.1 ∈ names then entry.2.matching selected else 0 := by
    intro entry
    split
    next => exact (entry.2.length_held_purged selected).symm
    next => rfl
  rw [messageTotal_eq, matching, ← b.queues.sum_entries_mem (·.matching selected) hnodup hsubset,
    List.map_congr_left fun entry _ => hqueue entry, List.sum_map_add]
  simp [purged, Catalog.mapEntries, Function.comp_def]

/-- Purging leaves every queue where it is. -/
theorem purged_restocks (b : Broker) (selected : Option Filter.Expr) (names : List String) :
    Restocks b (b.purged selected names) where
  addresses := rfl
  queues := by
    have hkept : ∀ q : Queue, q.Filtered → (q.purged selected).Filtered := by
      intro q hfiltered
      refine hfiltered.of_subset rfl fun m hm => ?_
      simp only [Queue.held, Queue.purged, List.mem_append, List.mem_filter] at hm ⊢
      exact hm.imp_left And.left
    refine ⟨fun name q hq => ⟨_, by rw [get?_purged, hq, Option.map_some], ?_⟩, fun name q' hq' => ?_⟩
    · split
      next => exact ⟨rfl, hkept q⟩
      next => exact ⟨rfl, id⟩
    · rw [get?_purged] at hq'
      obtain ⟨q, hq, -⟩ := Option.map_eq_some_iff.mp hq'
      exact ⟨q, hq⟩

/-! ### Single queues -/

variable {name : String} {filter : Option String}

/-- A removal purges a queue that is there, unless it has been arranged to fail, when its filter can be
read. -/
theorem removeMessages_eq_ok {q : Queue} (hq : b.queues.get? name = some q)
    (hname : name ∉ b.failingRemovals) (hread : readOptionalFilter filter = .ok selected) :
    b.removeMessages name filter = (.ok (q.matching selected), b.purged selected [name]) := by
  have hqueues : b.queues.insert name (q.purged selected) = (b.purged selected [name]).queues := by
    refine Catalog.ext_get? fun other => ?_
    by_cases hother : other = name
    · subst hother
      simp [hq]
    · simp [hother]
  have hcount : q.messages.length - (q.purged selected).messages.length = q.matching selected := by
    have hsplit := List.length_eq_length_filter_add (l := q.messages) (Filter.accepts selected)
    simp only [Queue.purged, Queue.matching]
    omega
  unfold Queue.purged at hqueues hcount
  simp only [removeMessages, List.contains_eq_mem, hname, hread, (b.queue_eq_ok_iff name q).mpr hq,
    hqueues, hcount]
  rfl

/-- Why a removal fails on a queue: it has been arranged to, or else the filter cannot be read. -/
inductive Refuses (b : Broker) (filter : Option String) (name : String) : Error → Prop
  | arranged : name ∈ b.failingRemovals →
      Refuses b filter name (.other ("removal failed on queue " ++ name))
  | unreadable {text : String} {e : Filter.Error} : name ∉ b.failingRemovals → filter = some text →
      Filter.parse text = .error e → Refuses b filter name (.invalidFilter (e.message text))

/-- A filter that is not blank and denotes no expression cannot be read. -/
theorem readOptionalFilter_eq_error {text : String} {e : Filter.Error}
    (hblank : Text.isBlankText text = false) (h : Filter.parse text = .error e) :
    readOptionalFilter (some text) = .error (.invalidFilter (e.message text)) := by
  simp only [readOptionalFilter, Filter.parseOptional, hblank, h]
  rfl

/-- A removal that is refused fails and changes nothing. -/
theorem Refuses.removeMessages_eq {cause : Error} (h : Refuses b filter name cause)
    (hblank : ∀ text, filter = some text → Text.isBlankText text = false) :
    b.removeMessages name filter = (.error cause, b) := by
  cases h with
  | arranged hname => simp [removeMessages, hname]
  | unreadable hname hfilter hparse =>
    subst hfilter
    simp [removeMessages, hname, readOptionalFilter_eq_error (hblank _ rfl) hparse]

end Broker

namespace Subscription

/-! ### What a selector selects -/

/-- What a selector selects: everything if it is missing or blank, and otherwise what is accepted by the
expression that its translation denotes. -/
inductive Selects : Option String → Option Filter.Expr → Prop
  | missing : Selects none none
  | blank {text : String} : Text.isBlankText text = true → Selects (some text) none
  | translated {text filter : String} {e : Filter.Expr} :
      Selector.toFilter (some text) = .ok (some filter) → Filter.parse filter = .ok e →
        Selects (some text) (some e)

/-- A filter denotes no expression. -/
def Unreadable (filter : Option String) : Prop :=
  ∃ text e, filter = some text ∧ Filter.parse text = .error e

/-- A translation is not blank. -/
theorem isBlankText_of_translation {selector filter : Option String}
    (h : Selector.toFilter selector = .ok filter) :
    ∀ text, filter = some text → Text.isBlankText text = false := by
  rintro text rfl
  cases selector with
  | none => cases h
  | some selector => exact Selector.isBlankText_of_toFilter h

/-- What a selector selects is read from its translation. -/
theorem Selects.exists_filter {selector : Option String} {selected : Option Filter.Expr}
    (h : Selects selector selected) : ∃ filter, Selector.toFilter selector = .ok filter ∧
      Broker.readOptionalFilter filter = .ok selected := by
  cases h with
  | missing => exact ⟨none, rfl, rfl⟩
  | blank hblank => exact ⟨none, by simp [Selector.toFilter, hblank], rfl⟩
  | translated htranslate hparse =>
    exact ⟨_, htranslate, mapError_eq_ok_iff.mpr (Filter.parseOptional_of_parse hparse)⟩

/-- A selector that can be read as a filter selects what its expression accepts in the words of the broker. -/
theorem selects_of_parse {text : String} {e : Filter.Expr} (h : Filter.parse text = .ok e) :
    Selects (some text) (some (e.rename Selector.brokerName Selector.brokerText)) := by
  obtain ⟨filter, htranslate, hfilter⟩ := Selector.parse_toFilter h
  exact .translated htranslate hfilter

/-- A selector that has a translation selects something, unless the translation cannot be read. -/
theorem unreadable_or_selects {selector filter : Option String}
    (h : Selector.toFilter selector = .ok filter) :
    Unreadable filter ∨ ∃ selected, Selects selector selected := by
  cases selector with
  | none => exact Or.inr ⟨none, .missing⟩
  | some text =>
    cases hblank : Text.isBlankText text with
    | true => exact Or.inr ⟨none, .blank hblank⟩
    | false =>
      cases filter with
      | none =>
        exfalso
        simp only [Selector.toFilter, hblank, Bool.false_eq_true, if_false] at h
        split at h <;> cases h
      | some filter =>
        cases hparse : Filter.parse filter with
        | error e => exact Or.inl ⟨filter, e, rfl, hparse⟩
        | ok e => exact Or.inr ⟨some e, .translated h hparse⟩

/-! ### Several queues -/

variable {b : Broker} {address : String} {a : Address} {selector filter : Option String}
  {selected : Option Filter.Expr}

/-- Messages are removed from queues up to some point, and it goes on with the others. -/
theorem removeFrom_append (hread : Broker.readOptionalFilter filter = .ok selected)
    (before rest : List String) (removed : Nat) (hnodup : before.Nodup)
    (hrecords : ∀ name ∈ before, ∃ q, b.queues.get? name = some q)
    (hfaults : ∀ name ∈ before, name ∉ b.failingRemovals) :
    removeFrom Broker.handle filter removed (before ++ rest) b =
      removeFrom Broker.handle filter (removed + b.matching selected before) rest
        (b.purged selected before) := by
  induction before generalizing removed b with
  | nil =>
    rw [Broker.purged_nil]
    rfl
  | cons name before ih =>
    obtain ⟨hfresh, hnodup⟩ := List.nodup_cons.mp hnodup
    obtain ⟨⟨q, hq⟩, hrecords⟩ := List.forall_mem_cons.mp hrecords
    obtain ⟨hname, hfaults⟩ := List.forall_mem_cons.mp hfaults
    have hfirst : removeFrom Broker.handle filter removed (name :: (before ++ rest)) b =
        removeFrom Broker.handle filter (removed + q.matching selected) (before ++ rest)
          (b.purged selected [name]) := by
      rw [removeFrom]
      simp only [Broker.handle, Broker.queueControl, hq, Option.map_some,
        Broker.removeMessages_eq_ok hq hname hread]
    have hrecords' : ∀ other ∈ before, ∃ r, (b.purged selected [name]).queues.get? other = some r := by
      intro other hother
      obtain ⟨r, hr⟩ := hrecords other hother
      exact ⟨_, by rw [Broker.get?_purged, hr, Option.map_some]⟩
    have hdisjoint : ∀ other ∈ before, other ∉ [name] := by
      rintro other hother hmem
      exact hfresh (List.mem_singleton.mp hmem ▸ hother)
    rw [List.cons_append, hfirst, ih _ hnodup hrecords' hfaults, Broker.purged_append,
      Broker.matching_purged_of_disjoint hdisjoint, Broker.matching_cons hq, Nat.add_assoc]
    rfl

/-- A queue on which the removal is refused ends it. -/
theorem removeFrom_of_refuses {name : String} {cause : Broker.Error} {q : Queue}
    (hq : b.queues.get? name = some q) (hrefuses : b.Refuses filter name cause)
    (hblank : ∀ text, filter = some text → Text.isBlankText text = false) (removed : Nat)
    (rest : List String) :
    removeFrom Broker.handle filter removed (name :: rest) b =
      (.error (.partialRemoval name removed cause), b) := by
  rw [removeFrom]
  simp only [Broker.handle, Broker.queueControl, hq, Option.map_some,
    hrefuses.removeMessages_eq hblank]

/-- Messages are removed from the queues that an address lists. -/
theorem removeMessages_eq_removeFrom (ha : b.addresses.get? address = some a)
    (htranslate : Selector.toFilter selector = .ok filter) :
    removeMessages Broker.handle selector address b = removeFrom Broker.handle filter 0 a.queues b := by
  simp only [removeMessages, htranslate, addressControl, Broker.handle, Broker.addressControl, ha,
    Option.map_some]

/-! ### All queues of an address -/

/-- Messages are removed from the queues of an address up to some point, and it goes on with the others. -/
theorem removeMessages_eq_of_append (hb : b.WellFormed) (ha : b.addresses.get? address = some a)
    (htranslate : Selector.toFilter selector = .ok filter)
    (hread : Broker.readOptionalFilter filter = .ok selected) {before rest : List String}
    (hsplit : a.queues = before ++ rest) (hfaults : ∀ name ∈ before, name ∉ b.failingRemovals) :
    removeMessages Broker.handle selector address b =
      removeFrom Broker.handle filter (b.matching selected before) rest (b.purged selected before) := by
  have hnodup := hb.nodup address a ha
  have hrecords := hb.records ha
  rw [hsplit] at hnodup hrecords
  have hbefore : ∀ name ∈ before, ∃ q, b.queues.get? name = some q := by
    intro name hname
    obtain ⟨q, hq, -⟩ := hrecords name (List.mem_append_left rest hname)
    exact ⟨q, hq⟩
  rw [removeMessages_eq_removeFrom ha htranslate, hsplit,
    removeFrom_append hread before rest 0 (List.nodup_append'.mp hnodup).1 hbefore hfaults, Nat.zero_add]

/-- Where no removal has been arranged to fail, all queues of an address are purged. -/
theorem removeMessages_eq_ok (hb : b.WellFormed) (ha : b.addresses.get? address = some a)
    (hfaults : ∀ name ∈ a.queues, name ∉ b.failingRemovals) (hselects : Selects selector selected) :
    removeMessages Broker.handle selector address b =
      (.ok (b.matching selected a.queues), b.purged selected a.queues) := by
  obtain ⟨filter, htranslate, hread⟩ := hselects.exists_filter
  rw [removeMessages_eq_of_append hb ha htranslate hread (List.append_nil _).symm hfaults]
  rfl

/-- Removing messages from an address removes just those that wait in its queues and that the selector
selects, from all of the queues, and answers by how many messages there are less. Removing them once more
removes nothing. -/
theorem removeMessages_exact (hb : b.Reachable) (ha : b.addresses.get? address = some a)
    (hfaults : ∀ name ∈ a.queues, name ∉ b.failingRemovals) (hselects : Selects selector selected) :
    removeMessages Broker.handle selector address b =
        (.ok (b.matching selected a.queues), b.purged selected a.queues) ∧
      (∃ total, (b.purged selected a.queues).messageTotal = .ok total ∧
        b.messageTotal = .ok (total + b.matching selected a.queues)) ∧
      removeMessages Broker.handle selector address (b.purged selected a.queues) =
        (.ok 0, b.purged selected a.queues) := by
  refine ⟨removeMessages_eq_ok hb.wellFormed ha hfaults hselects,
    b.messageTotal_purged selected (hb.wellFormed.nodup address a ha) (hb.wellFormed.listed_subset ha), ?_⟩
  have hpurged := hb.wellFormed.restocks (b.purged_restocks selected a.queues)
  rw [removeMessages_eq_ok hpurged ha hfaults hselects, Broker.matching_purged_self,
    Broker.purged_append]
  simp only [Broker.purged, List.mem_append, or_self]

/-- The urgent messages of a topic are removed from its placeholder and from a subscription that has one
more of them in delivery. -/
theorem removeMessages_exact_urgent :
    let urgent : Filter.Expr := .compare "AMQPriority" .gt (.number (.ofInt 4))
    let actions : List Broker.Action := [.createTopicWithPlaceholder "t" "keepalive",
      .createQueue "t" "c.s" {}, .send "t" ((Message.ofBody "a" 0).withPriority 7),
      .send "t" (.ofBody "b" 0), .send "t" ((Message.ofBody "c" 0).withPriority 7), .receive "c.s"]
    let purged := (Broker.run actions).purged (some urgent) ["keepalive", "c.s"]
    removeMessages Broker.handle (some "JMSPriority > 4") "t" (Broker.run actions) = (.ok 3, purged) ∧
      removeMessages Broker.handle (some "JMSPriority > 4") "t" purged = (.ok 0, purged) := by
  intro urgent actions purged
  have ha : (Broker.run actions).addresses.get? "t" =
      some ⟨["keepalive", "c.s"], some "keepalive", none⟩ := by decide +kernel
  have hfaults : ∀ name ∈ ["keepalive", "c.s"], name ∉ (Broker.run actions).failingRemovals := by
    have hnone : (Broker.run actions).failingRemovals = [] := by decide +kernel
    simp [hnone]
  have hparse : Filter.parse "JMSPriority > 4" =
      .ok (.compare "JMSPriority" .gt (.number (.ofInt 4))) := by with_unfolding_all rfl
  have hselects : Selects (some "JMSPriority > 4") (some urgent) := selects_of_parse hparse
  have hcount : (Broker.run actions).matching (some urgent) ["keepalive", "c.s"] = 3 := by decide +kernel
  obtain ⟨hremoved, -, hagain⟩ :=
    removeMessages_exact ⟨actions, rfl⟩ ha hfaults hselects
  rw [hcount] at hremoved
  exact ⟨hremoved, hagain⟩

/-! ### Failure -/

/-- A translation that is none cannot be read on the first queue of an address already. -/
theorem removeMessages_of_unreadable (hb : b.WellFormed) (ha : b.addresses.get? address = some a)
    (htranslate : Selector.toFilter selector = .ok filter) (hunreadable : Unreadable filter)
    {name : String} {rest : List String} (hqueues : a.queues = name :: rest) :
    ∃ cause, b.Refuses filter name cause ∧ removeMessages Broker.handle selector address b =
      (.error (.partialRemoval name 0 cause), b) := by
  obtain ⟨text, e, hfilter, hparse⟩ := hunreadable
  obtain ⟨q, hq, -⟩ := hb.records ha name (hqueues ▸ List.mem_cons_self)
  obtain ⟨cause, hrefuses⟩ : ∃ cause, b.Refuses filter name cause := by
    by_cases hname : name ∈ b.failingRemovals
    · exact ⟨_, .arranged hname⟩
    · exact ⟨_, .unreadable hname hfilter hparse⟩
  refine ⟨cause, hrefuses, ?_⟩
  rw [removeMessages_eq_removeFrom ha htranslate, hqueues,
    removeFrom_of_refuses hq hrefuses (isBlankText_of_translation htranslate)]

/-- The first queue on which the removal has been arranged to fail is reported, and the queues before it have
been purged. -/
theorem removeMessages_of_arranged (hb : b.WellFormed) (ha : b.addresses.get? address = some a)
    (hselects : Selects selector selected) {before after : List String} {name : String}
    (hqueues : a.queues = before ++ name :: after) (hbefore : ∀ other ∈ before, other ∉ b.failingRemovals)
    (hname : name ∈ b.failingRemovals) :
    removeMessages Broker.handle selector address b =
      (.error (.partialRemoval name (b.matching selected before)
        (.other ("removal failed on queue " ++ name))), b.purged selected before) := by
  obtain ⟨filter, htranslate, hread⟩ := hselects.exists_filter
  obtain ⟨q, hq, -⟩ := hb.records ha name (hqueues ▸ List.mem_append_right _ List.mem_cons_self)
  obtain ⟨q', hq', -⟩ := (b.purged_restocks selected before).queues.stays name q hq
  rw [removeMessages_eq_of_append hb ha htranslate hread hqueues hbefore]
  exact removeFrom_of_refuses hq' (.arranged hname) (isBlankText_of_translation htranslate) _ _

/-- Removing messages from an address fails just when it lists a queue, and the translation of the selector
cannot be read or the removal has been arranged to fail on one of its queues. -/
theorem exists_removeMessages_eq_error_iff (hb : b.WellFormed)
    (ha : b.addresses.get? address = some a) (htranslate : Selector.toFilter selector = .ok filter) :
    (∃ e, (removeMessages Broker.handle selector address b).1 = .error e) ↔
      a.queues ≠ [] ∧ (Unreadable filter ∨ ∃ name ∈ a.queues, name ∈ b.failingRemovals) := by
  constructor
  · rintro ⟨e, herror⟩
    refine ⟨fun hnone => ?_, ?_⟩
    · rw [removeMessages_eq_removeFrom ha htranslate, hnone] at herror
      cases herror
    · refine (unreadable_or_selects htranslate).imp_right ?_
      rintro ⟨selected, hselects⟩
      by_contra hfaults
      push Not at hfaults
      rw [removeMessages_eq_ok hb ha hfaults hselects] at herror
      cases herror
  · rintro ⟨hqueues, hcause⟩
    by_cases hunreadable : Unreadable filter
    · obtain ⟨name, rest, hqueues⟩ := List.exists_cons_of_ne_nil hqueues
      obtain ⟨cause, -, hremove⟩ := removeMessages_of_unreadable hb ha htranslate hunreadable hqueues
      exact ⟨_, by rw [hremove]⟩
    · obtain ⟨selected, hselects⟩ := (unreadable_or_selects htranslate).resolve_left hunreadable
      obtain ⟨before, name, after, hqueues, hbefore, hname⟩ :=
        exists_first (hcause.resolve_left hunreadable)
      exact ⟨_, by rw [removeMessages_of_arranged hb ha hselects hqueues hbefore hname]⟩

/-- When removing messages from an address fails, and what it does then. It fails just when the address lists
a queue, and the translation of the selector cannot be read or the removal has been arranged to fail on one
of its queues. In the first case it fails on the first queue and nothing is changed. In the second the
first such queue is reported, together with the number of messages that are gone from the queues before
it; this queue and those that follow are as they were. -/
theorem removeMessages_fails_iff (hb : b.Reachable) (ha : b.addresses.get? address = some a)
    (htranslate : Selector.toFilter selector = .ok filter) :
    ((∃ e, (removeMessages Broker.handle selector address b).1 = .error e) ↔
      a.queues ≠ [] ∧ (Unreadable filter ∨ ∃ name ∈ a.queues, name ∈ b.failingRemovals)) ∧
    (∀ name rest, a.queues = name :: rest → Unreadable filter →
      ∃ cause, b.Refuses filter name cause ∧ removeMessages Broker.handle selector address b =
        (.error (.partialRemoval name 0 cause), b)) ∧
    ∀ selected before name after, Selects selector selected → a.queues = before ++ name :: after →
      (∀ other ∈ before, other ∉ b.failingRemovals) → name ∈ b.failingRemovals →
        removeMessages Broker.handle selector address b =
            (.error (.partialRemoval name (b.matching selected before)
              (.other ("removal failed on queue " ++ name))), b.purged selected before) ∧
          ∃ total, (b.purged selected before).messageTotal = .ok total ∧
            b.messageTotal = .ok (total + b.matching selected before) := by
  refine ⟨exists_removeMessages_eq_error_iff hb.wellFormed ha htranslate,
    fun name rest hqueues hunreadable => ?_, ?_⟩
  · exact removeMessages_of_unreadable hb.wellFormed ha htranslate hunreadable hqueues
  · intro selected before name after hselects hqueues hbefore hname
    have hinitial : before <+: a.queues := ⟨name :: after, hqueues.symm⟩
    have hnodup := (hb.wellFormed.nodup address a ha).sublist hinitial.sublist
    exact ⟨removeMessages_of_arranged hb.wellFormed ha hselects hqueues hbefore hname,
      b.messageTotal_purged selected hnodup fun _ h =>
        hb.wellFormed.listed_subset ha (hinitial.subset h)⟩

/-- Of three queues the second cannot be purged: the first has lost its message, and the third has not. -/
theorem removeMessages_fails_iff_second :
    let actions : List Broker.Action := [.createQueue "t" "a" {}, .createQueue "t" "b" {},
      .createQueue "t" "c" {}, .send "t" (.ofBody "text" 0), .failRemovals "b"]
    removeMessages Broker.handle none "t" (Broker.run actions) =
      (.error (.partialRemoval "b" 1 (.other "removal failed on queue b")),
        (Broker.run actions).purged none ["a"]) := by
  intro actions
  have ha : (Broker.run actions).addresses.get? "t" = some ⟨["a", "b", "c"], none, none⟩ := by decide +kernel
  have hfaults : (Broker.run actions).failingRemovals = ["b"] := by decide +kernel
  have hcount : (Broker.run actions).matching none ["a"] = 1 := by decide +kernel
  have htranslate : Selector.toFilter none = .ok none := rfl
  obtain ⟨-, -, harranged⟩ := removeMessages_fails_iff ⟨actions, rfl⟩ ha htranslate
  obtain ⟨hremove, -⟩ :=
    harranged none ["a"] "b" ["c"] .missing rfl (by simp [hfaults]) (by simp [hfaults])
  rw [hcount] at hremove
  exact hremove

end Subscription

end BrokerAdmin
