import BrokerAdmin.Proofs.Broker.Restocking
import BrokerAdmin.Proofs.Catalog

/-!
# What is created

An address is created where there is none, and a queue where its name is free and its filter can be read; it
creates its address if need be. A topic is made of both: its address, its placeholder, and the mark of the
queue as the placeholder. Each of these leads to one of the brokers that are named here, or to the same one.
-/

namespace BrokerAdmin.Broker

/-- The broker with one more address, which has no queues. -/
def withAddress (b : Broker) (address : String) : Broker :=
  { b with addresses := b.addresses.insert address Address.empty }

/-- The broker with one more queue on an address. -/
def withQueue (b : Broker) (address name : String) (options : QueueOptions) : Broker :=
  let a := (b.addresses.get? address).getD Address.empty
  { b with
    addresses := b.addresses.insert address { a with queues := a.queues ++ [name] }
    queues := b.queues.insert name (Queue.create address options) }

/-- The broker with one more address, which has a placeholder as its only queue. -/
def withTopic (b : Broker) (address placeholder : String) : Broker :=
  { b with
    addresses := b.addresses.insert address ⟨[placeholder], some placeholder, none⟩
    queues := b.queues.insert placeholder (Queue.create address {}) }

variable {b : Broker} {address placeholder : String}

/-! ### Addresses -/

/-- An address that is there is not created. -/
theorem createAddress_of_get? {a : Address} (ha : b.addresses.get? address = some a) :
    b.createAddress address = (.error (.alreadyExists address), b) := by
  rw [createAddress, if_pos]
  simp [Catalog.contains, ha]

/-- A new address is created without queues. -/
theorem createAddress_of_new (ha : b.addresses.get? address = none) :
    b.createAddress address = (.ok (), b.withAddress address) := by
  rw [createAddress, if_neg]
  · rfl
  · simp [Catalog.contains, ha]

/-- Creating an address adds it to the others, or changes nothing. -/
theorem createAddress_cases (b : Broker) (address : String) :
    (b.createAddress address).2 = b ∨
      b.addresses.get? address = none ∧ (b.createAddress address).2 = b.withAddress address := by
  cases ha : b.addresses.get? address with
  | some a => exact Or.inl (by rw [createAddress_of_get? ha])
  | none => exact Or.inr ⟨rfl, by rw [createAddress_of_new ha]⟩

/-! ### Queues -/

/-- What a new queue has passed: its filter can be read, and its name is free. -/
theorem checkNewQueue_eq_ok_iff (b : Broker) (name : String) (options : QueueOptions) :
    b.checkNewQueue name options = .ok () ↔
      (∀ text, options.filter = some text → ∃ e, Filter.parse text = .ok e) ∧
        b.queues.get? name = none := by
  have hname : (if b.queues.contains name then throw (.alreadyExists name) else pure () :
      Except Error Unit) = .ok () ↔ b.queues.get? name = none := by
    unfold Catalog.contains
    cases b.queues.get? name <;> simp [throw, throwThe, MonadExceptOf.throw, pure, Except.pure]
  unfold checkNewQueue
  cases hfilter : options.filter with
  | none => simpa [bind, Except.bind, pure, Except.pure] using hname
  | some text =>
    cases hparse : Filter.parse text with
    | error e =>
      have hdiscard : discard (readFilter text) = .error (.invalidFilter (e.message text)) := by
        rw [readFilter, hparse]
        rfl
      simp [hdiscard, hparse, bind, Except.bind]
    | ok e =>
      have hdiscard : discard (readFilter text) = .ok () := by
        rw [(readFilter_eq_ok_iff text e).mpr hparse]
        rfl
      simpa [hdiscard, hparse, bind, Except.bind] using hname

/-- A queue that passes is created. -/
theorem createQueue_eq {b : Broker} {address name : String} {options : QueueOptions}
    (hcheck : b.checkNewQueue name options = .ok ()) :
    b.createQueue address name options = (.ok (), b.withQueue address name options) := by
  unfold createQueue
  rw [hcheck]
  rfl

/-- A queue whose name is taken is not created. -/
theorem createQueue_of_get? {name : String} {q : Queue} (hq : b.queues.get? name = some q) :
    b.createQueue address name {} = (.error (.alreadyExists name), b) := by
  have hcheck : b.checkNewQueue name {} = .error (.alreadyExists name) := by
    simp [checkNewQueue, Catalog.contains, hq, throw, throwThe, MonadExceptOf.throw]
  rw [createQueue, hcheck]

/-- A queue whose name is free is created. -/
theorem createQueue_of_new {name : String} (hq : b.queues.get? name = none) :
    b.createQueue address name {} = (.ok (), b.withQueue address name {}) :=
  createQueue_eq ((b.checkNewQueue_eq_ok_iff name {}).mpr ⟨nofun, hq⟩)

/-- Creating a queue adds it to the others, or fails and changes nothing. -/
theorem createQueue_cases (b : Broker) (address name : String) (options : QueueOptions) :
    (∃ e, b.createQueue address name options = (.error e, b)) ∨
      (b.queues.get? name = none ∧
        b.createQueue address name options = (.ok (), b.withQueue address name options)) := by
  cases hcheck : b.checkNewQueue name options with
  | error e => exact Or.inl ⟨e, by rw [createQueue, hcheck]⟩
  | ok =>
    have hnone := ((checkNewQueue_eq_ok_iff b name options).mp hcheck).2
    exact Or.inr ⟨hnone, createQueue_eq hcheck⟩

/-! ### Topics -/

/-- A new address with a queue that is made its placeholder is a topic. -/
theorem setPlaceholder_withAddress (b : Broker) (address placeholder : String) :
    ((b.withAddress address).withQueue address placeholder {}).setPlaceholder address placeholder =
      b.withTopic address placeholder := by
  have haddresses : ((b.withAddress address).withQueue address placeholder {}).addresses.modify address
      (fun a => { a with placeholder := some placeholder }) =
      (b.withTopic address placeholder).addresses := by
    refine Catalog.ext_get? fun other => ?_
    by_cases hother : other = address
    · simp [withQueue, withAddress, withTopic, Address.empty, hother]
    · simp [withQueue, withAddress, withTopic, hother]
  exact congrArg (fun addresses => { b.withTopic address placeholder with addresses }) haddresses

/-- There is no topic at an address that is there. -/
theorem createTopic_of_get? {a : Address} (ha : b.addresses.get? address = some a) :
    b.createTopicWithPlaceholder address placeholder = (.error (.alreadyExists address), b) := by
  rw [createTopicWithPlaceholder, createAddress_of_get? ha]

/-- Where the name of the placeholder is taken, a new address is created and left without queues. -/
theorem createTopic_of_taken {q : Queue} (ha : b.addresses.get? address = none)
    (hq : b.queues.get? placeholder = some q) :
    b.createTopicWithPlaceholder address placeholder =
      (.error (.alreadyExists placeholder), b.withAddress address) := by
  have htaken : (b.withAddress address).queues.get? placeholder = some q := hq
  rw [createTopicWithPlaceholder, createAddress_of_new ha]
  dsimp only
  rw [createQueue_of_get? htaken]

/-- Where the address is new and the name of the placeholder free, the topic is created. -/
theorem createTopic_of_new (ha : b.addresses.get? address = none)
    (hq : b.queues.get? placeholder = none) :
    b.createTopicWithPlaceholder address placeholder = (.ok (), b.withTopic address placeholder) := by
  have hfree : (b.withAddress address).queues.get? placeholder = none := hq
  rw [createTopicWithPlaceholder, createAddress_of_new ha]
  dsimp only
  rw [createQueue_of_new hfree]
  dsimp only
  rw [setPlaceholder_withAddress]

/-- Creating a topic adds it to the others, or its address alone, or changes nothing. -/
theorem createTopic_cases (b : Broker) (address placeholder : String) :
    (b.createTopicWithPlaceholder address placeholder).2 = b ∨
      b.addresses.get? address = none ∧
        ((b.createTopicWithPlaceholder address placeholder).2 = b.withAddress address ∨
          b.queues.get? placeholder = none ∧
            (b.createTopicWithPlaceholder address placeholder).2 = b.withTopic address placeholder) := by
  cases ha : b.addresses.get? address with
  | some a => exact Or.inl (by rw [createTopic_of_get? ha])
  | none =>
    refine Or.inr ⟨rfl, ?_⟩
    cases hq : b.queues.get? placeholder with
    | some q => exact Or.inl (by rw [createTopic_of_taken ha hq])
    | none => exact Or.inr ⟨rfl, by rw [createTopic_of_new ha hq]⟩

end BrokerAdmin.Broker
