import BrokerAdmin.Proofs.Broker.Creation
import BrokerAdmin.Proofs.Broker.Routing
import BrokerAdmin.Proofs.Broker.Run

/-!
# What the parts of a broker say of each other

A broker knows twice which queue is bound to which address: the address lists the queue, and the queue
names the address. It also points at the placeholder of an address, and it keeps the filter of a queue
beside messages that the filter has let in. `WellFormed` says that all this agrees.

It holds of every reachable broker. Most actions leave every queue where it is: those are covered by
`Restocks`. Only the creation of addresses and queues, and the destruction of queues, change
what is bound to what.
-/

namespace BrokerAdmin.Broker

/-- An address lists a queue. -/
def Lists (b : Broker) (address name : String) : Prop :=
  ∃ a, b.addresses.get? address = some a ∧ name ∈ a.queues

/-- A queue is bound to an address. -/
def Binds (b : Broker) (address name : String) : Prop :=
  ∃ q, b.queues.get? name = some q ∧ q.address = address

/-- The parts of a broker agree. -/
structure WellFormed (b : Broker) : Prop where
  /-- An address lists the queues that are bound to it and no others. -/
  lists_iff : ∀ address name, b.Lists address name ↔ b.Binds address name
  nodup : ∀ address a, b.addresses.get? address = some a → a.queues.Nodup
  /-- The placeholder of an address is one of its queues. -/
  placeholder : ∀ address a name, b.addresses.get? address = some a → a.placeholder = some name →
    name ∈ a.queues
  filtered : ∀ name q, b.queues.get? name = some q → q.Filtered

/-- A queue that an address of a well-formed broker lists is bound to it. -/
theorem WellFormed.address_of_mem {b : Broker} (hb : b.WellFormed) {address name : String} {a : Address}
    {q : Queue} (ha : b.addresses.get? address = some a) (hname : name ∈ a.queues)
    (hq : b.queues.get? name = some q) : q.address = address := by
  obtain ⟨r, hr, rfl⟩ := (hb.lists_iff address name).mp ⟨a, ha, hname⟩
  exact congrArg Queue.address (Option.some.inj (hq.symm.trans hr))

/-- A broker without addresses is well formed. -/
theorem wellFormed_start : start.WellFormed where
  lists_iff address name := by simp [Lists, Binds, start]
  nodup address a ha := by simp [start] at ha
  placeholder address a name ha := by simp [start] at ha
  filtered name q hq := by simp [start] at hq

/-! ### Queues that stay where they are -/

/-- A broker stays well formed when only its queues change, one by one. -/
theorem WellFormed.restocks {b b' : Broker} (hb : b.WellFormed) (h : Restocks b b') : b'.WellFormed := by
  obtain ⟨haddresses, hqueues⟩ := h
  have hbinds : ∀ address name, b'.Binds address name ↔ b.Binds address name := by
    intro address name
    constructor
    · rintro ⟨q', hq', rfl⟩
      obtain ⟨q, hq⟩ := hqueues.came name q' hq'
      obtain ⟨q'', hq'', haddress, -⟩ := hqueues.stays name q hq
      obtain rfl : q' = q'' := Option.some.inj (hq'.symm.trans hq'')
      exact ⟨q, hq, haddress.symm⟩
    · rintro ⟨q, hq, rfl⟩
      obtain ⟨q', hq', haddress, -⟩ := hqueues.stays name q hq
      exact ⟨q', hq', haddress⟩
  refine ⟨fun address name => ?_, ?_, ?_, fun name q' hq' => ?_⟩
  · rw [hbinds, ← hb.lists_iff, Lists, haddresses]
    exact Iff.rfl
  · rw [haddresses]
    exact hb.nodup
  · rw [haddresses]
    exact hb.placeholder
  · obtain ⟨q, hq⟩ := hqueues.came name q' hq'
    obtain ⟨q'', hq'', -, hfiltered⟩ := hqueues.stays name q hq
    obtain rfl : q' = q'' := Option.some.inj (hq'.symm.trans hq'')
    exact hfiltered (hb.filtered name q hq)

/-- A broker stays well formed when neither addresses nor queues change. -/
theorem WellFormed.of_eq {b b' : Broker} (hb : b.WellFormed) (haddresses : b'.addresses = b.addresses)
    (hqueues : b'.queues = b.queues) : b'.WellFormed :=
  hb.restocks (.of_eq haddresses hqueues)

/-! ### Messages -/

/-- The queues that an address lists have filtered records. -/
theorem WellFormed.records {b : Broker} (hb : b.WellFormed) {address : String} {a : Address}
    (ha : b.addresses.get? address = some a) :
    ∀ name ∈ a.queues, ∃ q, b.queues.get? name = some q ∧ q.Filtered := by
  intro name hname
  obtain ⟨q, hq, -⟩ := (hb.lists_iff address name).mp ⟨a, ha, hname⟩
  exact ⟨q, hq, hb.filtered name q hq⟩

/-- Sending to an address of a well-formed broker succeeds. -/
theorem WellFormed.send_succeeds {b : Broker} (hb : b.WellFormed) (address : String) (m : Message)
    {a : Address} (ha : b.addresses.get? address = some a) :
    ∃ routed, (b.send address m).1 = .ok routed := by
  obtain ⟨routed, -, queues, -, hroute, -⟩ :=
    route_succeeds { m with id := b.lastMessageId + 1 } a.queues b.queues (hb.records ha)
  refine ⟨routed, ?_⟩
  simp only [send, queueNames, ha, hroute]

/-! ### Addresses and what is bound to them -/

/-- A broker stays well formed when an address is written that lists the queues bound to it. -/
theorem WellFormed.of_address {b b' : Broker} (hb : b.WellFormed) (address : String) (a' : Address)
    (hqueues : b'.queues = b.queues)
    (hget : ∀ other, b'.addresses.get? other =
      if other = address then some a' else b.addresses.get? other)
    (hlist : ∀ name, name ∈ a'.queues ↔ b.Lists address name) (hnodup : a'.queues.Nodup)
    (hplaceholder : ∀ name, a'.placeholder = some name → name ∈ a'.queues) : b'.WellFormed := by
  have hlists : ∀ other name, b'.Lists other name ↔ b.Lists other name := by
    intro other name
    by_cases hother : other = address
    · subst hother
      rw [← hlist, Lists, hget, if_pos rfl]
      simp
    · rw [Lists, hget, if_neg hother]
      exact Iff.rfl
  refine ⟨fun other name => ?_, fun other a ha => ?_, fun other a name ha hname => ?_, ?_⟩
  · rw [hlists, hb.lists_iff, Binds, Binds, hqueues]
  · rw [hget] at ha
    split at ha
    next => exact Option.some.inj ha ▸ hnodup
    next => exact hb.nodup other a ha
  · rw [hget] at ha
    split at ha
    next =>
      obtain rfl := Option.some.inj ha
      exact hplaceholder name hname
    next => exact hb.placeholder other a name ha hname
  · rw [hqueues]
    exact hb.filtered

/-- A broker stays well formed with one more address. -/
theorem WellFormed.withAddress {b : Broker} (hb : b.WellFormed) {address : String}
    (hnone : b.addresses.get? address = none) : (b.withAddress address).WellFormed := by
  refine hb.of_address address Address.empty rfl (fun other => by simp [Broker.withAddress]) ?_ ?_ ?_
  · intro name
    simp [Address.empty, Lists, hnone]
  · exact List.nodup_nil
  · intro name hname
    contradiction

/-- Creating an address leaves a broker well formed. -/
theorem WellFormed.createAddress {b : Broker} (hb : b.WellFormed) (address : String) :
    (b.createAddress address).2.WellFormed := by
  rcases b.createAddress_cases address with heq | ⟨hnone, heq⟩
  · rwa [heq]
  · rw [heq]
    exact hb.withAddress hnone

/-- A broker stays well formed when an address is written with the queues that it listed before. -/
theorem WellFormed.of_relisted {b b' : Broker} (hb : b.WellFormed) {address : String} {a : Address}
    (a' : Address) (ha : b.addresses.get? address = some a) (hqueues : b'.queues = b.queues)
    (hget : ∀ other, b'.addresses.get? other =
      if other = address then some a' else b.addresses.get? other)
    (hlist : a'.queues = a.queues) (hplaceholder : ∀ name, a'.placeholder = some name → name ∈ a.queues) :
    b'.WellFormed := by
  refine hb.of_address address a' hqueues hget (fun name => ?_) ?_ (hlist ▸ hplaceholder)
  · rw [hlist, Lists, ha]
    simp
  · rw [hlist]
    exact hb.nodup address a ha

/-- Pausing an address leaves a broker well formed. -/
theorem WellFormed.pauseAddress {b : Broker} (hb : b.WellFormed) (address : String) (persist : Bool) :
    (b.pauseAddress address persist).2.WellFormed := by
  have hrecord : (b.record (.pauseAddress address persist)).WellFormed := hb.of_eq rfl rfl
  unfold Broker.pauseAddress
  dsimp only
  split
  next => exact hrecord
  next a ha =>
    exact hrecord.of_relisted { a with pause := some (persist || a.pause.getD false) } ha rfl (by simp)
      rfl (hrecord.placeholder address a · ha)

/-- Letting delivery go on leaves a broker well formed. -/
theorem WellFormed.resumeAddress {b : Broker} (hb : b.WellFormed) (address : String) :
    (b.resumeAddress address).2.WellFormed := by
  have hrecord : (b.record (.resumeAddress address)).WellFormed := hb.of_eq rfl rfl
  unfold Broker.resumeAddress
  dsimp only
  split
  next => exact hrecord
  next a ha =>
    exact hrecord.of_relisted { a with pause := none } ha rfl (by simp) rfl
      (hrecord.placeholder address a · ha)

/-- A queue that is listed can be made the placeholder. -/
theorem WellFormed.setPlaceholder {b : Broker} (hb : b.WellFormed) {address name : String}
    (hlists : b.Lists address name) : (b.setPlaceholder address name).WellFormed := by
  obtain ⟨a, ha, hname⟩ := hlists
  refine hb.of_relisted { a with placeholder := some name } ha rfl ?_ rfl ?_
  · intro other
    by_cases hother : other = address
    · subst hother
      simp [Broker.setPlaceholder, ha]
    · simp [Broker.setPlaceholder, hother]
  · intro other hother
    obtain rfl := Option.some.inj hother
    exact hname

/-- An address that a queue is created on lists what it listed before and the new queue. -/
theorem lists_withQueue (b : Broker) (address name : String) (options : QueueOptions)
    (other queue : String) : (b.withQueue address name options).Lists other queue ↔
      b.Lists other queue ∨ (other = address ∧ queue = name) := by
  unfold Lists withQueue
  by_cases hother : other = address
  · subst hother
    cases ha : b.addresses.get? other with
    | none => simp [Address.empty]
    | some a => simp
  · simp [hother]

/-- The new queue is bound to its address, and the others are bound as before. -/
theorem binds_withQueue {b : Broker} {name : String} (hnone : b.queues.get? name = none)
    (address : String) (options : QueueOptions) (other queue : String) :
    (b.withQueue address name options).Binds other queue ↔
      b.Binds other queue ∨ (other = address ∧ queue = name) := by
  unfold Binds withQueue
  by_cases hqueue : queue = name
  · subst hqueue
    simp [hnone, Queue.create, eq_comm]
  · simp [hqueue]

/-- A broker stays well formed with one more queue whose filter can be read. -/
theorem WellFormed.withQueue {b : Broker} (hb : b.WellFormed) (address : String) {name : String}
    {options : QueueOptions} (hnone : b.queues.get? name = none)
    (hfilter : ∀ text, options.filter = some text → ∃ e, Filter.parse text = .ok e) :
    (b.withQueue address name options).WellFormed := by
  have hnew : ∀ a, b.addresses.get? address = some a → name ∉ a.queues := by
    intro a ha hname
    obtain ⟨q, hq, -⟩ := (hb.lists_iff address name).mp ⟨a, ha, hname⟩
    rw [hnone] at hq
    contradiction
  refine ⟨fun other queue => ?_, fun other a ha => ?_, fun other a queue ha hqueue => ?_,
    fun queue q hq => ?_⟩
  · rw [lists_withQueue, binds_withQueue hnone, hb.lists_iff]
  · simp only [Broker.withQueue, Catalog.get?_insert] at ha
    split at ha
    next =>
      obtain rfl := Option.some.inj ha
      cases hold : b.addresses.get? address with
      | none => simp [Address.empty]
      | some old =>
        have hdisjoint : ∀ queue ∈ old.queues, queue ≠ name := by
          rintro queue hmem rfl
          exact hnew old hold hmem
        simpa [List.nodup_append, hb.nodup address old hold] using hdisjoint
    next => exact hb.nodup other a ha
  · simp only [Broker.withQueue, Catalog.get?_insert] at ha
    split at ha
    next =>
      obtain rfl := Option.some.inj ha
      cases hold : b.addresses.get? address with
      | none => simp [hold, Address.empty] at hqueue
      | some old =>
        rw [hold] at hqueue
        exact List.mem_append_left _ (hb.placeholder address old queue hold hqueue)
    next => exact hb.placeholder other a queue ha hqueue
  · simp only [Broker.withQueue, Catalog.get?_insert] at hq
    split at hq
    next =>
      obtain rfl := Option.some.inj hq
      intro text htext
      obtain ⟨e, hparse⟩ := hfilter text htext
      exact ⟨e, hparse, by simp [Queue.held, Queue.create]⟩
    next => exact hb.filtered queue q hq

/-- Creating a queue leaves a broker well formed. -/
theorem WellFormed.createQueue {b : Broker} (hb : b.WellFormed) (address name : String)
    (options : QueueOptions) : (b.createQueue address name options).2.WellFormed := by
  cases hcheck : b.checkNewQueue name options with
  | error e =>
    have hfailed : (b.createQueue address name options).2 = b := by rw [Broker.createQueue, hcheck]
    rwa [hfailed]
  | ok passed =>
    obtain ⟨hfilter, hnone⟩ := (checkNewQueue_eq_ok_iff b name options).mp hcheck
    rw [createQueue_eq hcheck]
    exact hb.withQueue address hnone hfilter

/-- A broker stays well formed with one more topic. -/
theorem WellFormed.withTopic {b : Broker} (hb : b.WellFormed) {address placeholder : String}
    (hnone : b.addresses.get? address = none) (hfree : b.queues.get? placeholder = none) :
    (b.withTopic address placeholder).WellFormed := by
  have hbound : ((b.withAddress address).withQueue address placeholder {}).WellFormed :=
    (hb.withAddress hnone).withQueue address hfree nofun
  rw [← setPlaceholder_withAddress]
  exact hbound.setPlaceholder ((lists_withQueue _ _ _ _ _ _).mpr (Or.inr ⟨rfl, rfl⟩))

/-- Creating a topic leaves a broker well formed. -/
theorem WellFormed.createTopicWithPlaceholder {b : Broker} (hb : b.WellFormed)
    (address placeholder : String) : (b.createTopicWithPlaceholder address placeholder).2.WellFormed := by
  rcases b.createTopic_cases address placeholder with heq | ⟨hnone, heq | ⟨hfree, heq⟩⟩
  · rwa [heq]
  · rw [heq]
    exact hb.withAddress hnone
  · rw [heq]
    exact hb.withTopic hnone hfree

/-! ### Queues that are destroyed -/

/-- The broker without a queue, which its address lists no longer. -/
def withoutQueue (b : Broker) (address name : String) : Broker :=
  { b with
    queues := b.queues.erase name
    addresses := b.addresses.modify address fun a => a.unbind name }

/-- What is known of an address after a queue is gone. -/
theorem get?_withoutQueue (b : Broker) (address name other : String) :
    (b.withoutQueue address name).addresses.get? other =
      if other = address then (b.addresses.get? other).map fun a => a.unbind name
      else b.addresses.get? other := by
  simp [withoutQueue]

/-- An address without one of its queues lists the others. -/
theorem mem_queues_unbind (a : Address) (name queue : String) :
    queue ∈ (a.unbind name).queues ↔ queue ∈ a.queues ∧ queue ≠ name := by
  simp [Address.unbind]

/-- The address of a queue that is gone lists the others as before. -/
theorem lists_withoutQueue (b : Broker) (address name other queue : String) :
    (b.withoutQueue address name).Lists other queue ↔
      b.Lists other queue ∧ ¬ (other = address ∧ queue = name) := by
  unfold Lists
  rw [get?_withoutQueue]
  by_cases hother : other = address
  · subst hother
    cases ha : b.addresses.get? other <;> simp [mem_queues_unbind]
  · simp [hother]

/-- The queues that are left are bound as before. -/
theorem binds_withoutQueue (b : Broker) (address name other queue : String) :
    (b.withoutQueue address name).Binds other queue ↔ b.Binds other queue ∧ queue ≠ name := by
  unfold Binds withoutQueue
  by_cases hqueue : queue = name <;> simp [hqueue]

/-- A broker stays well formed when a queue goes together with its place on the list. -/
theorem WellFormed.withoutQueue {b : Broker} (hb : b.WellFormed) {name : String} {q : Queue}
    (hq : b.queues.get? name = some q) : (b.withoutQueue q.address name).WellFormed := by
  -- the queue is bound to one address, so no other address can list it
  have haddress : ∀ other, b.Binds other name → other = q.address := by
    rintro other ⟨q', hq', rfl⟩
    exact congrArg Queue.address (Option.some.inj (hq'.symm.trans hq))
  refine ⟨fun other queue => ?_, fun other a ha => ?_, fun other a queue ha hqueue => ?_,
    fun queue r hr => ?_⟩
  · rw [lists_withoutQueue, binds_withoutQueue, hb.lists_iff]
    refine and_congr_right fun hbinds => not_congr ⟨And.right, ?_⟩
    rintro rfl
    exact ⟨haddress other hbinds, rfl⟩
  · rw [get?_withoutQueue] at ha
    split at ha
    next =>
      obtain ⟨old, hold, rfl⟩ := Option.map_eq_some_iff.mp ha
      exact (hb.nodup other old hold).filter _
    next => exact hb.nodup other a ha
  · rw [get?_withoutQueue] at ha
    split at ha
    next =>
      obtain ⟨old, hold, rfl⟩ := Option.map_eq_some_iff.mp ha
      have hkept : old.placeholder = some queue ∧ queue ≠ name := by
        unfold Address.unbind at hqueue
        dsimp only at hqueue
        split at hqueue
        next => contradiction
        next hne => exact ⟨hqueue, fun heq => hne (heq ▸ hqueue)⟩
      exact (mem_queues_unbind old name queue).mpr
        ⟨hb.placeholder other old queue hold hkept.1, hkept.2⟩
    next => exact hb.placeholder other a queue ha hqueue
  · simp only [Broker.withoutQueue, Catalog.get?_erase] at hr
    split at hr
    next => contradiction
    next => exact hb.filtered queue r hr

/-- Destroying a queue takes it away together with its place on the list of its address, or does
nothing but record the call. -/
theorem destroyQueue_eq (b : Broker) (name : String) (removeConsumers : Bool) :
    (b.destroyQueue name removeConsumers).2 = b.record (.destroyQueue name removeConsumers) ∨
      ∃ q, b.queues.get? name = some q ∧ (b.destroyQueue name removeConsumers).2 =
        (b.record (.destroyQueue name removeConsumers)).withoutQueue q.address name := by
  unfold destroyQueue
  dsimp only
  split
  next => exact Or.inl rfl
  next q hq =>
    split
    next => exact Or.inl rfl
    next => exact Or.inr ⟨q, (queue_eq_ok_iff _ name q).mp hq, rfl⟩

/-- Destroying a queue leaves a broker well formed. -/
theorem WellFormed.destroyQueue {b : Broker} (hb : b.WellFormed) (name : String)
    (removeConsumers : Bool) : (b.destroyQueue name removeConsumers).2.WellFormed := by
  have hrecord : (b.record (.destroyQueue name removeConsumers)).WellFormed := hb.of_eq rfl rfl
  rcases b.destroyQueue_eq name removeConsumers with heq | ⟨q, hq, heq⟩
  · rw [heq]
    exact hrecord
  · rw [heq]
    exact hrecord.withoutQueue hq

/-! ### All runs -/

/-- Every action leaves a broker well formed. -/
theorem WellFormed.perform {b : Broker} (hb : b.WellFormed) (action : Action) :
    (b.perform action).WellFormed := by
  by_cases haddresses : action.isAboutAddresses = true
  · cases action with
    | createAddress address => exact hb.createAddress address
    | createTopic address => exact hb.createTopicWithPlaceholder address address
    | createTopicWithPlaceholder address placeholder =>
      exact hb.createTopicWithPlaceholder address placeholder
    | createQueue address name options => exact hb.createQueue address name options
    | destroyQueue name removeConsumers => exact hb.destroyQueue name removeConsumers
    | pauseAddress address persist => exact hb.pauseAddress address persist
    | resumeAddress address => exact hb.resumeAddress address
    | _ => contradiction
  · rw [Bool.not_eq_true] at haddresses
    exact hb.restocks (b.restocks_perform haddresses)

/-- Every reachable broker is well formed. -/
theorem Reachable.wellFormed {b : Broker} (hb : b.Reachable) : b.WellFormed :=
  hb.induction wellFormed_start fun action _ h => h.perform action

/-- After every run the addresses, queues, placeholders, filters and messages of the broker agree.
Therefore sending never comes upon a filter that cannot be read, and routing comes to each queue that the
address lists and finds its record. -/
theorem run_wellFormed (actions : List Action) :
    (run actions).WellFormed ∧
      ∀ (address : String) (m : Message),
        (∀ reason, ((run actions).send address m).1 ≠ .error (.invalidFilter reason)) ∧
        ∀ a, (run actions).addresses.get? address = some a →
          RoutesToAll { m with id := (run actions).lastMessageId + 1 } a.queues (run actions).queues := by
  have hrun : (run actions).WellFormed := Reachable.wellFormed ⟨actions, rfl⟩
  generalize run actions = b at hrun ⊢
  refine ⟨hrun, fun address m => ⟨fun reason => ?_, fun a ha => ?_⟩⟩
  · cases ha : b.addresses.get? address with
    | none => simp [Broker.send, queueNames, ha]
    | some a =>
      obtain ⟨routed, hsend⟩ := hrun.send_succeeds address m ha
      simp [hsend]
  · exact routesToAll_of_records _ (hrun.records ha)

/-- A message to a topic with a filtered queue comes to the placeholder and to that queue. -/
theorem run_wellFormed_filtered_topic :
    RoutesToAll { Message.ofBody "text" 0 with id := 1 } ["t", "c.s"]
      (run [.createTopic "t", .createQueue "t" "c.s" { filter := some "a IS NULL" }]).queues := by
  obtain ⟨-, hsend⟩ :=
    run_wellFormed [.createTopic "t", .createQueue "t" "c.s" { filter := some "a IS NULL" }]
  have hroute := (hsend "t" (Message.ofBody "text" 0)).2 ⟨["t", "c.s"], some "t", none⟩ (by decide +kernel)
  have hid : (run [.createTopic "t",
      .createQueue "t" "c.s" { filter := some "a IS NULL" }]).lastMessageId = 0 := by decide +kernel
  rwa [hid] at hroute

end BrokerAdmin.Broker
