import BrokerAdmin.Proofs.Broker.Failure

/-!
# Topics

A topic is created in three steps: its address, the placeholder queue, and the mark of the queue as the
placeholder. The names of queues are shared by all addresses, so the second step can fail although the
address is new, and then the first one is not undone: the address stays, without queues and without a
placeholder. Nothing else can go wrong halfway. A request for an address that is there changes nothing, and
a request that succeeds leaves the address with the placeholder as its only queue.
-/

namespace BrokerAdmin.Broker

variable {b : Broker} {address placeholder : String}

/-- A new address was not known before. -/
theorem withAddress_ne (ha : b.addresses.get? address = none) :
    (b.withAddress address).addresses ≠ b.addresses := by
  intro hsame
  have hget := congrArg (Catalog.get? · address) hsame
  simp [withAddress, ha] at hget

/-- The placeholder is the only queue that is bound to a topic. -/
theorem WellFormed.binds_withTopic (hb : b.WellFormed) (ha : b.addresses.get? address = none)
    (name : String) : (b.withTopic address placeholder).Binds address name ↔ name = placeholder := by
  have hnone : ¬ b.Binds address name := by
    rw [← hb.lists_iff]
    rintro ⟨a, hlisted, -⟩
    rw [ha] at hlisted
    contradiction
  by_cases hname : name = placeholder
  · simp [Binds, Broker.withTopic, Queue.create, hname]
  · simpa [Binds, Broker.withTopic, hname] using hnone

/-- What the request for a topic leads to. -/
structure TopicRequest (b : Broker) (address placeholder : String) (outcome : Outcome Unit) : Prop where
  /-- It fails just when the address is there or the name of the placeholder is taken. -/
  fails_iff : IsError outcome.1 ↔
    (∃ a, b.addresses.get? address = some a) ∨ ∃ q, b.queues.get? placeholder = some q
  /-- When it fails, addresses, queues and bridges are as before just when the address was there. -/
  unchanged_iff : IsError outcome.1 →
    (outcome.2.addresses = b.addresses ∧ outcome.2.queues = b.queues ∧ outcome.2.bridges = b.bridges ↔
      ∃ a, b.addresses.get? address = some a)
  /-- When it fails for a new address, the address is left behind, without queues. -/
  left_behind : IsError outcome.1 → b.addresses.get? address = none → outcome.2 = b.withAddress address
  /-- When it succeeds, the address is new and has the placeholder as its only queue. -/
  created : outcome.1 = .ok () → b.addresses.get? address = none ∧
    outcome.2 = b.withTopic address placeholder ∧
    ∀ name, outcome.2.Binds address name ↔ name = placeholder

/-- The request for a topic with a placeholder of any name. -/
theorem WellFormed.topicRequest (hb : b.WellFormed) (address placeholder : String) :
    TopicRequest b address placeholder (b.createTopicWithPlaceholder address placeholder) := by
  cases ha : b.addresses.get? address with
  | some a =>
    rw [createTopic_of_get? ha]
    exact ⟨by simp [IsError, ha], by simp [ha], by simp [ha], nofun⟩
  | none =>
    cases hq : b.queues.get? placeholder with
    | some q =>
      rw [createTopic_of_taken ha hq]
      exact ⟨by simp [IsError, hq], by simp [ha, withAddress_ne ha], fun _ _ => rfl, nofun⟩
    | none =>
      rw [createTopic_of_new ha hq]
      exact ⟨by simp [IsError, ha, hq], by simp [IsError], by simp [IsError],
        fun _ => ⟨ha, rfl, hb.binds_withTopic ha⟩⟩

/-- The creation of a topic that fails leaves a reachable broker as it was just when the address was there
before; otherwise the new address stays. One that succeeds makes a new address, which has exactly the
placeholder and records it. So it is for a placeholder of any name, and for one of the name of the address. -/
theorem createTopic_unchanged_iff (hb : b.Reachable) (address placeholder : String) :
    TopicRequest b address placeholder (b.createTopicWithPlaceholder address placeholder) ∧
      TopicRequest b address address (b.createTopic address) :=
  ⟨hb.wellFormed.topicRequest address placeholder, hb.wellFormed.topicRequest address address⟩

/-- Beside a topic and a queue, the topic is not created again and nothing changes, and another topic is
created with a placeholder of its own. -/
theorem createTopic_unchanged_iff_beside_topic :
    let b := run [.createTopic "t", .createQueue "u" "q" {}]
    b.Reachable ∧ IsError (b.createTopic "t").1 ∧ (b.createTopic "t").2.addresses = b.addresses ∧
      (b.createTopic "t").2.queues = b.queues ∧ (b.createTopic "t").2.bridges = b.bridges ∧
      (b.createTopicWithPlaceholder "v" "p").1 = .ok () ∧
      ∀ name, (b.createTopicWithPlaceholder "v" "p").2.Binds "v" name ↔ name = "p" := by
  have hreachable : (run [.createTopic "t", .createQueue "u" "q" {}]).Reachable := ⟨_, rfl⟩
  have hfails : IsError ((run [.createTopic "t", .createQueue "u" "q" {}]).createTopic "t").1 :=
    ⟨.alreadyExists "t", by decide +kernel⟩
  have hthere : ∃ a, (run [.createTopic "t", .createQueue "u" "q" {}]).addresses.get? "t" = some a :=
    Option.isSome_iff_exists.mp (by decide +kernel)
  have hsucceeds :
      ((run [.createTopic "t", .createQueue "u" "q" {}]).createTopicWithPlaceholder "v" "p").1 = .ok () := by
    decide +kernel
  obtain ⟨-, hagain⟩ := createTopic_unchanged_iff hreachable "t" "t"
  obtain ⟨haddresses, hqueues, hbridges⟩ := (hagain.unchanged_iff hfails).mpr hthere
  obtain ⟨hother, -⟩ := createTopic_unchanged_iff hreachable "v" "p"
  obtain ⟨-, -, hbound⟩ := hother.created hsucceeds
  exact ⟨hreachable, hfails, haddresses, hqueues, hbridges, hsucceeds, hbound⟩

/-- A topic whose placeholder would have the name of a queue of another address is not created, and its
address is left behind, without queues and without a placeholder. -/
theorem createTopic_leaves_address :
    let b := run [.createQueue "a" "q" {}]
    b.Reachable ∧ (b.createTopicWithPlaceholder "t" "q").1 = .error (.alreadyExists "q") ∧
      b.addresses.get? "t" = none ∧
      (b.createTopicWithPlaceholder "t" "q").2.addresses.get? "t" = some Address.empty ∧
      (b.createTopicWithPlaceholder "t" "q").2.addresses ≠ b.addresses := by
  have hnew : (run [.createQueue "a" "q" {}]).addresses.get? "t" = none := by decide +kernel
  have hleft : ((run [.createQueue "a" "q" {}]).createTopicWithPlaceholder "t" "q").2.addresses.get? "t" =
      some Address.empty := by
    decide +kernel
  refine ⟨⟨_, rfl⟩, by decide +kernel, hnew, hleft, fun hsame => ?_⟩
  rw [hsame, hnew] at hleft
  contradiction

end BrokerAdmin.Broker
