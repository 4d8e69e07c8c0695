import BrokerAdmin.Proofs.Subscription.Footprint

/-!
# What dropping all subscriptions destroys

The queues of an address are destroyed one after the other, its placeholder apart. Which queues these are is
read from the address once, at the beginning, while each queue that is destroyed leaves the list of the
address; so the broker is told at every point of the loop from the broker at its beginning and the queues
that are gone.

A queue that has consumers ends the loop: the queues before it are gone, and it and those after it are as
they were. Every attempt is recorded in the journal, the last one too.
-/

namespace BrokerAdmin

/-- The queues of an address apart from its placeholder, in the order of their creation. -/
def Address.droppable (a : Address) : List String :=
  a.queues.filter fun name => a.placeholder != some name

/-- A queue that may be dropped is one of the address and not its placeholder. -/
theorem Address.mem_droppable_iff (a : Address) (name : String) :
    name ∈ a.droppable ↔ name ∈ a.queues ∧ a.placeholder ≠ some name := by
  simp [droppable]

/-- Of the queues of an address its placeholder is left, if it has one. -/
theorem Address.filter_notMem_droppable {a : Address} (hnodup : a.queues.Nodup)
    (hplaceholder : ∀ name, a.placeholder = some name → name ∈ a.queues) :
    a.queues.filter (· ∉ a.droppable) = a.placeholder.toList := by
  cases hname : a.placeholder with
  | none => simp [mem_droppable_iff, hname]
  | some name =>
    have hleft : a.queues.filter (· ∉ a.droppable) = a.queues.filter (· == name) := by
      refine List.filter_congr fun other hother => ?_
      simp [mem_droppable_iff, hother, hname, eq_comm, beq_eq_decide]
    rw [hleft, List.filter_beq, List.count_eq_one_of_mem hnodup (hplaceholder name hname)]
    rfl

namespace Broker

/-- A queue has consumers. -/
def InUse (b : Broker) (name : String) : Prop :=
  ∃ q, b.queues.get? name = some q ∧ q.consumers ≠ []

/-- The broker after several queues of an address have been destroyed one by one. -/
def dropped (b : Broker) (address : String) (gone : List String) : Broker :=
  { b.withoutQueues address gone with
    journal := b.journal ++ gone.map fun name => .destroyQueue name false }

variable {b : Broker} {address name : String} {a : Address} {gone : List String}

/-- When no queue is destroyed, everything stays. -/
theorem dropped_nil (b : Broker) (address : String) : b.dropped address [] = b := by
  simp only [dropped, withoutQueues_nil, List.map_nil, List.append_nil]

/-- The queues that are not destroyed are as before. -/
@[simp] theorem get?_dropped (b : Broker) (address : String) (gone : List String) (name : String) :
    (b.dropped address gone).queues.get? name =
      if name ∈ gone then none else b.queues.get? name :=
  b.get?_withoutQueues address gone name

/-- The address lists the queues that are not destroyed, and keeps everything else. -/
theorem address_dropped (ha : b.addresses.get? address = some a) (gone : List String) :
    (b.dropped address gone).addresses.get? address =
      some { a with queues := a.queues.filter (· ∉ gone) } := by
  simp [dropped, withoutQueues, ha]

/-- Of the queues of an address its placeholder is left when all others are destroyed. -/
theorem WellFormed.address_dropped_droppable (hb : b.WellFormed)
    (ha : b.addresses.get? address = some a) :
    (b.dropped address a.droppable).addresses.get? address =
      some { a with queues := a.placeholder.toList } := by
  rw [address_dropped ha, Address.filter_notMem_droppable (hb.nodup address a ha)
    fun name => hb.placeholder address a name ha]

/-- A queue that has consumers is not destroyed. -/
theorem destroyQueue_of_inUse (h : b.InUse name) :
    b.destroyQueue name false = (.error (.inUse name), b.record (.destroyQueue name false)) := by
  obtain ⟨q, hq, hconsumers⟩ := h
  have hqueue := ((b.record (.destroyQueue name false)).queue_eq_ok_iff name q).mpr hq
  simp [destroyQueue, hqueue, hconsumers]

/-- A queue without consumers is destroyed. -/
theorem destroyQueue_of_not_inUse {q : Queue} (hq : b.queues.get? name = some q)
    (hidle : ¬ b.InUse name) : b.destroyQueue name false =
      (.ok (), (b.record (.destroyQueue name false)).withoutQueue q.address name) := by
  have hconsumers : q.consumers = [] := by
    by_contra hconsumers
    exact hidle ⟨q, hq, hconsumers⟩
  have hqueue := ((b.record (.destroyQueue name false)).queue_eq_ok_iff name q).mpr hq
  simp [destroyQueue, hqueue, hconsumers, withoutQueue]

/-- A queue that is left has consumers if it had some before. -/
theorem inUse_dropped_iff (hname : name ∉ gone) :
    (b.dropped address gone).InUse name ↔ b.InUse name := by
  simp [InUse, hname]

/-- One more queue of the address is destroyed. -/
theorem destroyQueue_dropped (hb : b.WellFormed) (ha : b.addresses.get? address = some a)
    (hname : name ∈ a.droppable) (hidle : ¬ b.InUse name) (hleft : name ∉ gone) :
    (b.dropped address gone).destroyQueue name false =
      (.ok (), b.dropped address (gone ++ [name])) := by
  obtain ⟨hlisted, hplaceholder⟩ := (a.mem_droppable_iff name).mp hname
  obtain ⟨q, hq, -⟩ := hb.records ha name hlisted
  have hqueue : (b.dropped address gone).queues.get? name = some q := by
    rw [get?_dropped, if_neg hleft, hq]
  have hstep : ((b.dropped address gone).record (.destroyQueue name false)).withoutQueue address name =
      { (b.withoutQueues address gone).withoutQueue address name with
        journal := b.journal ++ gone.map (fun name => .destroyQueue name false) ++
          [.destroyQueue name false] } := rfl
  rw [destroyQueue_of_not_inUse hqueue (mt (inUse_dropped_iff hleft).mp hidle),
    hb.address_of_mem ha hlisted hq, hstep, withoutQueue_withoutQueues ha gone hplaceholder]
  simp [dropped]

end Broker

namespace Subscription

variable {b b' : Broker} {address : String} {a : Address} {before rest : List String}
  {result : Except Error Nat}

/-- Queues are destroyed up to some point, and it goes on with the others. -/
theorem destroyQueues_append (hb : b.WellFormed) (ha : b.addresses.get? address = some a)
    (gone : List String) (hnodup : (gone ++ before).Nodup) (hsubset : before ⊆ a.droppable)
    (hidle : ∀ name ∈ before, ¬ b.InUse name)
    (hrest : destroyQueues Broker.handle rest (b.dropped address (gone ++ before)) = (result, b')) :
    destroyQueues Broker.handle (before ++ rest) (b.dropped address gone) =
      (result.map (· + before.length), b') := by
  -- the broker at the beginning stays fixed, and the queues that are gone grow with each step
  induction before generalizing gone with
  | nil =>
    rw [List.append_nil] at hrest
    cases result <;> exact hrest
  | cons name before ih =>
    obtain ⟨hname, hsubset⟩ := List.cons_subset.mp hsubset
    obtain ⟨hfirst, hidle⟩ := List.forall_mem_cons.mp hidle
    have hleft : name ∉ gone := fun hgone =>
      List.disjoint_of_nodup_append hnodup hgone List.mem_cons_self
    have hdestroyed : Broker.handle.destroyQueue name false (b.dropped address gone) =
        (.ok (), b.dropped address (gone ++ [name])) :=
      Broker.destroyQueue_dropped hb ha hname hfirst hleft
    rw [List.append_cons] at hnodup hrest
    have hothers := ih (gone ++ [name]) hnodup hsubset hidle hrest
    rw [List.cons_append, destroyQueues, hdestroyed]
    simp only [hothers]
    cases result with
    | error e => rfl
    | ok count => simp only [Except.map, List.length_cons, Nat.add_assoc]

/-- A queue that has consumers ends the loop. -/
theorem destroyQueues_of_inUse {name : String} (h : b.InUse name) (rest : List String) :
    destroyQueues Broker.handle (name :: rest) b =
      (.error (.broker (.inUse name)), b.record (.destroyQueue name false)) := by
  have hfailed : Broker.handle.destroyQueue name false b =
      (.error (.inUse name), b.record (.destroyQueue name false)) := Broker.destroyQueue_of_inUse h
  rw [destroyQueues, hfailed]

/-- The queues of an address are destroyed up to some point, and it goes on with the others. -/
theorem dropAll_eq_of_append (hb : b.WellFormed) (ha : b.addresses.get? address = some a)
    (hsplit : a.droppable = before ++ rest) (hidle : ∀ name ∈ before, ¬ b.InUse name)
    (hrest : destroyQueues Broker.handle rest (b.dropped address before) = (result, b')) :
    dropAll Broker.handle address b = (result.map (· + before.length), b') := by
  have hinitial : before <+: a.droppable := ⟨rest, hsplit.symm⟩
  have hnodup : before.Nodup := ((hb.nodup address a ha).filter _).sublist hinitial.sublist
  have hall : dropAll Broker.handle address b = destroyQueues Broker.handle a.droppable b := by
    simp only [dropAll, addressControl, Broker.handle, Broker.addressControl, ha, Option.map_some]
    rfl
  have hdestroyed := destroyQueues_append hb ha [] hnodup hinitial.subset hidle hrest
  rwa [Broker.dropped_nil, ← hsplit, ← hall] at hdestroyed

/-- Where no queue has consumers, all but the placeholder are destroyed. -/
theorem dropAll_eq_ok (hb : b.WellFormed) (ha : b.addresses.get? address = some a)
    (hidle : ∀ name ∈ a.droppable, ¬ b.InUse name) :
    dropAll Broker.handle address b = (.ok a.droppable.length, b.dropped address a.droppable) := by
  rw [dropAll_eq_of_append hb ha (List.append_nil _).symm hidle rfl, Except.map, Nat.zero_add]

/-- The first queue that has consumers is reported, and those before it are destroyed. -/
theorem dropAll_of_inUse (hb : b.WellFormed) (ha : b.addresses.get? address = some a) {name : String}
    {after : List String} (hsplit : a.droppable = before ++ name :: after)
    (hbefore : ∀ other ∈ before, ¬ b.InUse other) (hname : b.InUse name) :
    dropAll Broker.handle address b =
      (.error (.broker (.inUse name)), (b.dropped address before).record (.destroyQueue name false)) := by
  have hleft : name ∉ before := fun hmem => hbefore name hmem hname
  exact dropAll_eq_of_append hb ha hsplit hbefore
    (destroyQueues_of_inUse ((Broker.inUse_dropped_iff hleft).mpr hname) after)

/-- All queues but the placeholder are destroyed, or there is a first of them that has consumers. -/
theorem dropAll_cases (hb : b.WellFormed) (ha : b.addresses.get? address = some a) :
    ((∀ name ∈ a.droppable, ¬ b.InUse name) ∧
      dropAll Broker.handle address b = (.ok a.droppable.length, b.dropped address a.droppable)) ∨
    ∃ before name after, a.droppable = before ++ name :: after ∧ (∀ other ∈ before, ¬ b.InUse other) ∧
      b.InUse name ∧ dropAll Broker.handle address b = (.error (.broker (.inUse name)),
        (b.dropped address before).record (.destroyQueue name false)) := by
  by_cases hidle : ∀ name ∈ a.droppable, ¬ b.InUse name
  · exact Or.inl ⟨hidle, dropAll_eq_ok hb ha hidle⟩
  · push Not at hidle
    obtain ⟨before, name, after, hsplit, hbefore, hname⟩ := exists_first hidle
    exact Or.inr ⟨before, name, after, hsplit, hbefore, hname,
      dropAll_of_inUse hb ha hsplit hbefore hname⟩

/-- Dropping all subscriptions of an address succeeds just when no queue other than the placeholder has
consumers. It then answers by the number of those queues; all of them are gone, and the address lists its
placeholder alone if it has one. Otherwise the first of them that has consumers is reported; those before
it are gone, and it and those after it are as they were. -/
theorem dropAll_succeeds_iff (hb : b.Reachable) (ha : b.addresses.get? address = some a) :
    ((∃ n, (dropAll Broker.handle address b).1 = .ok n) ↔
      ∀ name ∈ a.queues, a.placeholder ≠ some name → ¬ b.InUse name) ∧
    (∀ n b', dropAll Broker.handle address b = (.ok n, b') →
      n = a.droppable.length ∧ b' = b.dropped address a.droppable ∧
        b'.addresses.get? address = some { a with queues := a.placeholder.toList } ∧
        ∀ name, b'.queues.get? name = if name ∈ a.droppable then none else b.queues.get? name) ∧
    ∀ e b', dropAll Broker.handle address b = (.error e, b') →
      ∃ before name after, a.droppable = before ++ name :: after ∧
        (∀ other ∈ before, ¬ b.InUse other) ∧ b.InUse name ∧ e = .broker (.inUse name) ∧
        b' = (b.dropped address before).record (.destroyQueue name false) ∧
        (∀ other, b'.queues.get? other = if other ∈ before then none else b.queues.get? other) ∧
        ∀ other ∈ name :: after, other ∉ before := by
  have hwell := hb.wellFormed
  have hidle_iff : (∀ name ∈ a.droppable, ¬ b.InUse name) ↔
      ∀ name ∈ a.queues, a.placeholder ≠ some name → ¬ b.InUse name := by
    simp only [Address.mem_droppable_iff, and_imp]
  rw [← hidle_iff]
  rcases dropAll_cases hwell ha with
    ⟨hidle, hdropped⟩ | ⟨before, name, after, hsplit, hbefore, hname, hstopped⟩
  · rw [hdropped]
    refine ⟨iff_of_true ⟨_, rfl⟩ hidle, fun n b' h => ?_, fun e b' h => ?_⟩
    · obtain ⟨hn, rfl⟩ := Prod.mk.inj h
      obtain rfl := Except.ok.inj hn
      exact ⟨rfl, rfl, hwell.address_dropped_droppable ha, b.get?_dropped address a.droppable⟩
    · cases (Prod.mk.inj h).1
  · rw [hstopped]
    refine ⟨iff_of_false ?_ fun hidle => ?_, fun n b' h => ?_, fun e b' h => ?_⟩
    · rintro ⟨n, hn⟩
      cases hn
    · exact hidle name (hsplit ▸ List.mem_append_right before List.mem_cons_self) hname
    · cases (Prod.mk.inj h).1
    · obtain ⟨he, rfl⟩ := Prod.mk.inj h
      have hnodup : (before ++ name :: after).Nodup := hsplit ▸ (hwell.nodup address a ha).filter _
      exact ⟨before, name, after, hsplit, hbefore, hname, (Except.error.inj he).symm, rfl,
        b.get?_dropped address before, fun other hother hgone =>
          List.disjoint_of_nodup_append hnodup hgone hother⟩

/-- Of three subscriptions of a topic the second has a consumer, and the placeholder has one too: the first
subscription is dropped and nothing else. -/
theorem dropAll_succeeds_iff_second :
    let actions : List Broker.Action := [.createTopicWithPlaceholder "t" "keepalive",
      .createQueue "t" "c.a" {}, .createQueue "t" "c.b" {}, .createQueue "t" "c.c" {},
      .addConsumer "keepalive" "n" "s", .addConsumer "c.b" "n" "s"]
    dropAll Broker.handle "t" (Broker.run actions) = (.error (.broker (.inUse "c.b")),
      ((Broker.run actions).dropped "t" ["c.a"]).record (.destroyQueue "c.b" false)) := by
  intro actions
  have ha : (Broker.run actions).addresses.get? "t" =
      some ⟨["keepalive", "c.a", "c.b", "c.c"], some "keepalive", none⟩ := by decide +kernel
  have hfirst : ¬ (Broker.run actions).InUse "c.a" := by
    have hq : (Broker.run actions).queues.get? "c.a" = some (.create "t" {}) := by rfl
    rintro ⟨q, hq', hconsumers⟩
    obtain rfl := Option.some.inj (hq.symm.trans hq')
    exact hconsumers rfl
  have hsecond : (Broker.run actions).InUse "c.b" := by
    have hq : (Broker.run actions).queues.get? "c.b" =
        some ⟨"t", {}, [], [], [⟨"2", "n", "s", false, 0⟩]⟩ := by rfl
    exact ⟨_, hq, by simp⟩
  obtain ⟨hsucceeds, -, hfails⟩ := dropAll_succeeds_iff ⟨actions, rfl⟩ ha
  cases hdrop : dropAll Broker.handle "t" (Broker.run actions) with
  | mk result b' =>
    cases result with
    | ok n =>
      have hidle := hsucceeds.mp ⟨n, congrArg Prod.fst hdrop⟩ "c.b" (by simp) (by simp)
      contradiction
    | error e =>
      obtain ⟨before, name, after, hsplit, hbefore, hname, rfl, rfl, -, -⟩ := hfails e b' hdrop
      have hsplit : ["c.a", "c.b", "c.c"] = before ++ name :: after := hsplit
      cases before with
      | nil =>
        obtain ⟨rfl, -⟩ := List.cons.inj hsplit
        contradiction
      | cons first before =>
        obtain ⟨rfl, hrest⟩ := List.cons.inj hsplit
        cases before with
        | nil =>
          obtain ⟨rfl, -⟩ := List.cons.inj hrest
          rfl
        | cons second before =>
          obtain ⟨rfl, -⟩ := List.cons.inj hrest
          exact absurd hsecond (hbefore "c.b" (by simp))

end Subscription

end BrokerAdmin
