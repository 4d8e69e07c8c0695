import BrokerAdmin.Proofs.Broker.Restocking

/-!
# Routing past records with readable filters

Routing a message goes from queue to queue and answers how many have got it. It stops at a filter that
cannot be read, and passes over a queue that has no record. Neither happens while all listed queues have
records with readable filters: then routing comes to each of them in turn.
-/

namespace BrokerAdmin.Broker

/-- What comes of routing when some queues have got the message before. -/
def countedWith (routed : Nat) (outcome : Except Error Nat × Catalog Queue) :
    Except Error Nat × Catalog Queue :=
  (outcome.1.map (· + routed), outcome.2)

/-- Nothing is added to the answer when no queue has got the message before. -/
theorem countedWith_zero (outcome : Except Error Nat × Catalog Queue) :
    countedWith 0 outcome = outcome := by
  obtain ⟨result, queues⟩ := outcome
  cases result <;> rfl

/-- Queues that have got the message before are counted together. -/
theorem countedWith_countedWith (first second : Nat) (outcome : Except Error Nat × Catalog Queue) :
    countedWith first (countedWith second outcome) = countedWith (second + first) outcome := by
  obtain ⟨result, queues⟩ := outcome
  cases result with
  | error e => rfl
  | ok routed => simp only [countedWith, Except.map, Nat.add_assoc]

/-- Routing comes past the record of a queue and goes on with the others, which stay where they are. -/
theorem route_step (m : Message) (taken : Bool) {name : String} {queues : Catalog Queue} {q : Queue}
    (hq : queues.get? name = some q) (hfiltered : q.Filtered) :
    ∃ routed taken' queues', Restocked queues queues' ∧ ∀ rest,
      route m taken (name :: rest) queues = countedWith routed (route m taken' rest queues') := by
  obtain ⟨admitted, hadmits, hstays⟩ := hfiltered.admits m
  by_cases hpassed : admitted = false ∨ (q.options.routing = .anycast ∧ taken = true)
  · refine ⟨0, taken, queues, .refl queues, fun rest => ?_⟩
    rw [countedWith_zero]
    cases admitted with
    | false => simp only [route, hq, hadmits]
    | true =>
      have hanycast := hpassed.resolve_left (by simp)
      simp only [route, hq, hadmits, if_pos hanycast]
  · obtain ⟨hadmitted, hanycast⟩ := not_or.mp hpassed
    obtain rfl : admitted = true := by simpa using hadmitted
    have hrestocked : Restocked queues (queues.insert name { q with messages := q.messages ++ [m] }) :=
      .insert hq rfl fun _ => hstays rfl
    refine ⟨1, taken || q.options.routing = .anycast, _, hrestocked, fun rest => ?_⟩
    simp only [route, hq, hadmits, if_neg hanycast]
    rfl

/-- Routing comes past the records of several queues and goes on with the others. -/
theorem route_append (m : Message) (taken : Bool) (before : List String) (queues : Catalog Queue)
    (hrecords : ∀ name ∈ before, ∃ q, queues.get? name = some q ∧ q.Filtered) :
    ∃ routed taken' queues', Restocked queues queues' ∧ ∀ after,
      route m taken (before ++ after) queues = countedWith routed (route m taken' after queues') := by
  induction before generalizing taken queues with
  | nil =>
    refine ⟨0, taken, queues, .refl queues, fun after => ?_⟩
    rw [List.nil_append, countedWith_zero]
  | cons name before ih =>
    obtain ⟨⟨q, hq, hfiltered⟩, hbefore⟩ := List.forall_mem_cons.mp hrecords
    obtain ⟨first, taken₁, queues₁, hrestocked₁, hroute₁⟩ := route_step m taken hq hfiltered
    have hrecords₁ : ∀ name ∈ before, ∃ q, queues₁.get? name = some q ∧ q.Filtered := by
      intro other hother
      obtain ⟨r, hr, hrfiltered⟩ := hbefore other hother
      obtain ⟨r', hr', -, hfiltered'⟩ := hrestocked₁.stays other r hr
      exact ⟨r', hr', hfiltered' hrfiltered⟩
    obtain ⟨second, taken₂, queues₂, hrestocked₂, hroute₂⟩ := ih taken₁ queues₁ hrecords₁
    refine ⟨second + first, taken₂, queues₂, hrestocked₁.trans hrestocked₂, fun after => ?_⟩
    rw [List.cons_append, hroute₁, hroute₂, countedWith_countedWith]

/-- With records for all queues routing succeeds, and the queues stay where they are. -/
theorem route_succeeds (m : Message) (names : List String) (queues : Catalog Queue)
    (hrecords : ∀ name ∈ names, ∃ q, queues.get? name = some q ∧ q.Filtered) :
    ∃ routed taken queues', Restocked queues queues' ∧
      route m false names queues = (.ok routed, queues') ∧ ∀ after,
        route m false (names ++ after) queues = countedWith routed (route m taken after queues') := by
  obtain ⟨routed, taken, queues', hrestocked, hroute⟩ := route_append m false names queues hrecords
  refine ⟨routed, taken, queues', hrestocked, ?_, hroute⟩
  have hall := hroute []
  rw [List.append_nil] at hall
  rw [hall]
  simp only [countedWith, route, Except.map, Nat.zero_add]

/-- Routing comes to each of the listed queues, in their order, and finds a record there. -/
def RoutesToAll (m : Message) (names : List String) (queues : Catalog Queue) : Prop :=
  ∀ before name after, names = before ++ name :: after →
    ∃ routed taken reached q, route m false before queues = (.ok routed, reached) ∧
      reached.get? name = some q ∧
        route m false names queues = countedWith routed (route m taken (name :: after) reached)

/-- Where every listed queue has a record with a readable filter, routing finds them all. -/
theorem routesToAll_of_records (m : Message) {names : List String} {queues : Catalog Queue}
    (hrecords : ∀ name ∈ names, ∃ q, queues.get? name = some q ∧ q.Filtered) :
    RoutesToAll m names queues := by
  rintro before name after rfl
  obtain ⟨routed, taken, reached, hrestocked, hbefore, hroute⟩ := route_succeeds m before queues
    fun other hother => hrecords other (List.mem_append_left _ hother)
  obtain ⟨q, hq, -⟩ := hrecords name (List.mem_append_right _ List.mem_cons_self)
  obtain ⟨q', hq', -⟩ := hrestocked.stays name q hq
  exact ⟨routed, taken, reached, q', hbefore, hq', hroute (name :: after)⟩

end BrokerAdmin.Broker
