import BrokerAdmin.Proofs.Broker.WellFormed
import BrokerAdmin.Proofs.Catalog

/-!
# Where a message is routed to

The queues that get a message can be told before it is routed: every multicast queue that admits it, and
the first anycast queue that does. Routing puts the message at the tail of each of them and leaves all
other queues alone.

In a well-formed broker every listed queue can tell whether it admits a message, so sending to an address
always succeeds, and the state after it is given by the recipients alone.
-/

namespace BrokerAdmin

/-- The queue with one more message at its tail. -/
def Queue.append (q : Queue) (m : Message) : Queue :=
  { q with messages := q.messages ++ [m] }

namespace Broker

/-- Whether the queue under a name has that routing and admits a message. -/
def takes (m : Message) (queues : Catalog Queue) (routing : Routing) (name : String) : Bool :=
  match queues.get? name with
  | some q => q.options.routing = routing && (q.admits m).toOption.getD false
  | none => false

/-- Those of several queues that a message is routed to: the multicast queues that admit it and, unless an
anycast queue has got it before, the first anycast queue that does. -/
def takers (m : Message) (anycastTaken : Bool) (names : List String) (queues : Catalog Queue) :
    List String :=
  names.filter (takes m queues .multicast) ++
    if anycastTaken then [] else (names.find? (takes m queues .anycast)).toList

/-- Who takes a message depends on the records of the queues alone. -/
theorem takers_congr (m : Message) (anycastTaken : Bool) {names : List String}
    {queues queues' : Catalog Queue} (h : ∀ name ∈ names, queues.get? name = queues'.get? name) :
    takers m anycastTaken names queues = takers m anycastTaken names queues' := by
  have htakes : ∀ routing, ∀ name ∈ names, takes m queues routing name = takes m queues' routing name := by
    intro routing name hname
    rw [takes, takes, h name hname]
  have hfind : names.find? (takes m queues .anycast) = names.find? (takes m queues' .anycast) := by
    rw [← List.head?_filter, ← List.head?_filter, List.filter_congr (htakes .anycast)]
  rw [takers, takers, List.filter_congr (htakes .multicast), hfind]

/-- Only queues that a message comes to take it. -/
theorem takers_subset (m : Message) (anycastTaken : Bool) (names : List String)
    (queues : Catalog Queue) : takers m anycastTaken names queues ⊆ names := by
  intro name hname
  rcases List.mem_append.mp hname with hmulticast | hanycast
  · exact List.mem_of_mem_filter hmulticast
  · split at hanycast
    next => contradiction
    next => exact List.mem_of_find?_eq_some (Option.mem_toList.mp hanycast)

/-- A queue that takes a message has a record. -/
theorem exists_of_takes {m : Message} {queues : Catalog Queue} {routing : Routing} {name : String}
    (h : takes m queues routing name = true) :
    ∃ q, queues.get? name = some q ∧ q.options.routing = routing := by
  unfold takes at h
  split at h
  next q hq =>
    rw [Bool.and_eq_true, decide_eq_true_eq] at h
    exact ⟨q, hq, h.1⟩
  next => contradiction

/-- No queue takes a message twice. -/
theorem nodup_takers (m : Message) (anycastTaken : Bool) {names : List String} (queues : Catalog Queue)
    (hnodup : names.Nodup) : (takers m anycastTaken names queues).Nodup := by
  unfold takers
  split
  next => simpa using hnodup.filter _
  next =>
    refine List.nodup_append'.mpr ⟨hnodup.filter _, ?_, ?_⟩
    · cases names.find? (takes m queues .anycast) <;> simp
    -- a queue is of one kind only
    · intro name hmulticast hanycast
      obtain ⟨q, hq, hrouting⟩ := exists_of_takes (List.mem_filter.mp hmulticast).2
      obtain ⟨q', hq', hrouting'⟩ :=
        exists_of_takes (List.find?_some (Option.mem_toList.mp hanycast))
      obtain rfl : q = q' := Option.some.inj (hq.symm.trans hq')
      rw [hrouting] at hrouting'
      contradiction

/-- A queue that a message passes by is none of those that take it. -/
theorem takers_cons_of_passed (m : Message) (anycastTaken : Bool) {name : String} (rest : List String)
    {queues : Catalog Queue} {q : Queue} (hq : queues.get? name = some q) {admitted : Bool}
    (hadmits : q.admits m = .ok admitted)
    (hpassed : admitted = false ∨ (q.options.routing = .anycast ∧ anycastTaken = true)) :
    takers m anycastTaken (name :: rest) queues = takers m anycastTaken rest queues := by
  have htakes : ∀ routing, takes m queues routing name =
      (decide (q.options.routing = routing) && admitted) := by
    intro routing
    simp only [takes, hq, hadmits, Except.toOption, Option.getD_some]
  rcases hpassed with rfl | ⟨hrouting, rfl⟩
  · simp [takers, htakes]
  · simp [takers, htakes, hrouting]

/-- A queue that a message goes into takes it beside those that come later. -/
theorem takers_cons_of_taken (m : Message) (anycastTaken : Bool) {name : String} (rest : List String)
    {queues : Catalog Queue} {q : Queue} (hq : queues.get? name = some q)
    (hadmits : q.admits m = .ok true)
    (htaken : ¬ (q.options.routing = .anycast ∧ anycastTaken = true)) :
    (takers m anycastTaken (name :: rest) queues).Perm
      (name :: takers m (anycastTaken || q.options.routing = .anycast) rest queues) := by
  have htakes : ∀ routing, takes m queues routing name = decide (q.options.routing = routing) := by
    intro routing
    simp only [takes, hq, hadmits, Except.toOption, Option.getD_some, Bool.and_true]
  cases hrouting : q.options.routing with
  | multicast => simp [takers, htakes, hrouting]
  | anycast =>
    obtain rfl : anycastTaken = false := by simpa [hrouting] using htaken
    simp [takers, htakes, hrouting, List.perm_append_singleton]

/-- Each of the queues that take a message has it at its tail, and the others are as before. -/
def Delivers (m : Message) (taking : List String) (queues queues' : Catalog Queue) : Prop :=
  ∀ name, queues'.get? name =
    (queues.get? name).map fun q => if name ∈ taking then q.append m else q

/-- Routing puts a message into the queues that take it, and answers their number. -/
theorem route_eq (m : Message) (anycastTaken : Bool) {names : List String} {queues : Catalog Queue}
    (hnodup : names.Nodup)
    (hrecords : ∀ name ∈ names, ∃ q admitted, queues.get? name = some q ∧ q.admits m = .ok admitted) :
    ∃ queues', route m anycastTaken names queues =
        (.ok (takers m anycastTaken names queues).length, queues') ∧
      Delivers m (takers m anycastTaken names queues) queues queues' := by
  induction names generalizing anycastTaken queues with
  | nil =>
    have hnone : takers m anycastTaken [] queues = [] := by simp [takers]
    refine ⟨queues, ?_, fun name => ?_⟩
    · rw [hnone]
      rfl
    · simp [hnone]
  | cons name rest ih =>
    obtain ⟨hfresh, hrest⟩ := List.nodup_cons.mp hnodup
    obtain ⟨⟨q, admitted, hq, hadmits⟩, hothers⟩ := List.forall_mem_cons.mp hrecords
    by_cases hpassed : admitted = false ∨ (q.options.routing = .anycast ∧ anycastTaken = true)
    · have hroute : route m anycastTaken (name :: rest) queues = route m anycastTaken rest queues := by
        cases admitted with
        | false => simp only [route, hq, hadmits]
        | true =>
          have hanycast := hpassed.resolve_left (by simp)
          simp only [route, hq, hadmits, if_pos hanycast]
      rw [hroute, takers_cons_of_passed m anycastTaken rest hq hadmits hpassed]
      exact ih anycastTaken hrest hothers
    · obtain ⟨hadmitted, htaken⟩ := not_or.mp hpassed
      obtain rfl : admitted = true := by simpa using hadmitted
      have hperm := takers_cons_of_taken m anycastTaken rest hq hadmits htaken
      generalize htaken' : (anycastTaken || decide (q.options.routing = .anycast)) = taken' at hperm
      -- the queues that come later are found as they were before this one got the message
      have hlater : ∀ other ∈ rest, (queues.insert name (q.append m)).get? other = queues.get? other := by
        intro other hother
        have hne : other ≠ name := fun heq => hfresh (heq ▸ hother)
        simp [hne]
      have hrecords' : ∀ other ∈ rest, ∃ r admitted,
          (queues.insert name (q.append m)).get? other = some r ∧ r.admits m = .ok admitted := by
        intro other hother
        rw [hlater other hother]
        exact hothers other hother
      obtain ⟨queues', hroute, hdelivers⟩ := ih taken' hrest hrecords'
      rw [takers_congr m taken' hlater] at hroute hdelivers
      refine ⟨queues', ?_, fun other => ?_⟩
      · have hstep : route m anycastTaken (name :: rest) queues =
            ((route m taken' rest (queues.insert name (q.append m))).1.map (· + 1),
              (route m taken' rest (queues.insert name (q.append m))).2) := by
          rw [← htaken']
          simp only [route, hq, hadmits, if_neg htaken]
          rfl
        rw [hstep, hroute, hperm.length_eq]
        rfl
      · rw [hdelivers]
        by_cases hother : other = name
        · subst hother
          have hnot : other ∉ takers m taken' rest queues :=
            fun h => hfresh (takers_subset m taken' rest queues h)
          simp [hq, hnot, hperm.mem_iff]
        · simp [hother, hperm.mem_iff]

/-! ### Sending -/

/-- A message under the identifier that it gets when it is sent. -/
def stamped (b : Broker) (m : Message) : Message :=
  { m with id := b.lastMessageId + 1 }

/-- The queues that a message to an address is routed to. -/
def recipients (b : Broker) (address : String) (m : Message) : List String :=
  match b.addresses.get? address with
  | some a => takers (b.stamped m) false a.queues b.queues
  | none => []

/-- The queues that an address of a well-formed broker lists are there. -/
theorem WellFormed.listed_subset {b : Broker} (hb : b.WellFormed) {address : String} {a : Address}
    (ha : b.addresses.get? address = some a) : a.queues ⊆ b.queues.names := by
  intro name hname
  obtain ⟨q, hq, -⟩ := hb.records ha name hname
  exact (Catalog.mem_names_iff _ name).mpr ⟨q, hq⟩

/-- The recipients of a message are different queues of the broker. -/
theorem WellFormed.recipients_valid {b : Broker} (hb : b.WellFormed) (address : String) (m : Message) :
    (b.recipients address m).Nodup ∧ b.recipients address m ⊆ b.queues.names := by
  unfold recipients
  split
  next a ha =>
    refine ⟨nodup_takers _ _ _ (hb.nodup address a ha), fun name hname => ?_⟩
    exact hb.listed_subset ha (takers_subset _ _ _ _ hname)
  next => exact ⟨List.nodup_nil, nofun⟩

/-- A broker after a message got to its recipients. -/
def delivered (b : Broker) (address : String) (m : Message) : Broker :=
  { b with
    lastMessageId := b.lastMessageId + 1
    queues := b.queues.mapEntries fun name q =>
      if name ∈ b.recipients address m then q.append (b.stamped m) else q }

/-- Sending to an address of a well-formed broker reaches the recipients, and answers their number. -/
theorem WellFormed.send_eq {b : Broker} (hb : b.WellFormed) {address : String} {a : Address}
    (ha : b.addresses.get? address = some a) (m : Message) :
    b.send address m = (.ok (b.recipients address m).length, b.delivered address m) := by
  have hrecords : ∀ name ∈ a.queues, ∃ q admitted,
      b.queues.get? name = some q ∧ q.admits (b.stamped m) = .ok admitted := by
    intro name hname
    obtain ⟨q, hq, hfiltered⟩ := hb.records ha name hname
    obtain ⟨admitted, hadmits, -⟩ := hfiltered.admits (b.stamped m)
    exact ⟨q, admitted, hq, hadmits⟩
  obtain ⟨queues', hroute, hdelivers⟩ :=
    route_eq (b.stamped m) false (hb.nodup address a ha) hrecords
  have hrecipients : b.recipients address m = takers (b.stamped m) false a.queues b.queues := by
    rw [recipients, ha]
  have hqueues : queues' = b.queues.mapEntries fun name q =>
      if name ∈ b.recipients address m then q.append (b.stamped m) else q := by
    apply Catalog.ext_get?
    intro name
    rw [hdelivers, Catalog.get?_mapEntries, hrecipients]
  have hsend : b.send address m = ((route (b.stamped m) false a.queues b.queues).1,
      { b with
        lastMessageId := b.lastMessageId + 1
        queues := (route (b.stamped m) false a.queues b.queues).2 }) := by
    rw [send, queueNames, ha]
    rfl
  rw [hsend, hroute, hqueues, ← hrecipients]
  rfl

/-- Sending to an address that does not exist changes nothing. -/
theorem send_eq_of_none {b : Broker} {address : String} (h : b.addresses.get? address = none)
    (m : Message) : b.send address m = (.error (.notFound address), b) := by
  rw [send, queueNames, h]

end Broker

end BrokerAdmin
