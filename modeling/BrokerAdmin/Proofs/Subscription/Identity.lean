import BrokerAdmin.Proofs.Catalog
import BrokerAdmin.Proofs.Broker.Movement
import BrokerAdmin.Proofs.Subscription.Placeholder

/-!
# Durable subscriptions by client and name

A durable subscription is listed under the client and the name that its queue is named after, and it is
counted and dropped under these. Escaping keeps queues of different subscriptions apart, and an address
lists each of its queues once, so what is listed, counted and dropped is the same subscription, and no
other is touched.
-/

namespace BrokerAdmin.Subscription

open Broker (WellFormed)

/-! ### Listing -/

/-- What a subscription that is listed says of its queue. -/
structure Reports (b : Broker) (queue : QueueControl) (entry : Subscription) : Prop where
  queueName : entry.queueName = queue.name
  identity : identity queue.name queue.options.durable queue.options.routing =
    .ok (entry.client, entry.name)
  messageCount : b.messageCount queue.name = .ok entry.messageCount

/-- What is reported of the subscription behind a queue is what there is to know of the queue. -/
theorem reports_of_ofQueue {b : Broker} {queue : QueueControl} {entry : Subscription}
    (h : ofQueue Broker.handle b queue = .ok entry) : Reports b queue entry := by
  unfold ofQueue at h
  simp only [bind_eq_ok_iff, mapError_eq_ok_iff] at h
  obtain ⟨⟨client, name⟩, hidentity, text, -, h⟩ := h
  split at h
  next consumers =>
    simp only [bind_eq_ok_iff, mapError_eq_ok_iff] at h
    obtain ⟨messageCount, hcount, deliveringCount, -, heq⟩ := h
    obtain rfl := Except.ok.inj heq
    exact ⟨rfl, hidentity, hcount⟩
  next => contradiction

/-- The queues behind the subscriptions of an address are those that it lists, but for its placeholder. -/
theorem subscriptionQueues_eq {b : Broker} {address : String} {a : Address}
    (ha : b.addresses.get? address = some a) (durability : Durability) :
    subscriptionQueues Broker.handle durability address b =
      .ok (((a.queues.filter fun name => a.placeholder != some name).filterMap b.queueControl).filter
        fun queue => durability.includes queue.options.durable) := by
  have hcontrol : addressControl Broker.handle address b = .ok ⟨address, a.queues, a.placeholder⟩ := by
    simp [addressControl, Broker.handle, Broker.addressControl, ha]
  have hnames : Broker.handle.queueNames address b = .ok a.queues := by
    simp [Broker.handle, Broker.queueNames, ha]
  rw [subscriptionQueues, hcontrol]
  change ((Broker.handle.queueNames address b).mapError _ >>= _) = _
  rw [hnames]
  rfl

/-- Every queue is known under its own name. -/
theorem filter_queueControl (b : Broker) (names : List String) (name : String) :
    (names.filterMap b.queueControl).filter (fun queue => queue.name = name) =
      (names.filter fun other => other = name).filterMap b.queueControl := by
  rw [List.filter_filterMap, List.filterMap_filter]
  congr 1
  funext other
  unfold Broker.queueControl
  cases b.queues.get? other with
  | none => simp
  | some q => by_cases hother : other = name <;> simp [hother]

/-- Among the queues behind the subscriptions of an address, each queue occurs once that is bound to the
address, is not its placeholder and is asked for. -/
theorem filter_subscriptionQueues {b : Broker} (hb : b.WellFormed) {queueName : String} {q : Queue}
    (hq : b.queues.get? queueName = some q)
    (hplaceholder : ∀ a, b.addresses.get? q.address = some a → a.placeholder ≠ some queueName)
    {durability : Durability} (hincludes : durability.includes q.options.durable = true)
    {queues : List QueueControl}
    (hqueues : subscriptionQueues Broker.handle durability q.address b = .ok queues) :
    queues.filter (fun queue => queue.name = queueName) = [⟨queueName, q.options⟩] := by
  obtain ⟨a, ha, hlisted⟩ := (hb.lists_iff q.address queueName).mpr ⟨q, hq, rfl⟩
  have hnames : (a.queues.filter fun name => a.placeholder != some name).filter
      (fun name => name = queueName) = [queueName] := by
    have hmem : queueName ∈ a.queues.filter fun name => a.placeholder != some name := by
      simpa [hlisted] using hplaceholder a ha
    rw [List.filter_eq, List.count_eq_one_of_mem ((hb.nodup q.address a ha).filter _) hmem]
    rfl
  have hcontrol : b.queueControl queueName = some ⟨queueName, q.options⟩ := by
    simp [Broker.queueControl, hq]
  rw [subscriptionQueues_eq ha] at hqueues
  rw [← Except.ok.inj hqueues, List.filter_comm, filter_queueControl, hnames,
    List.filterMap_cons_some hcontrol, List.filterMap_nil]
  simp [hincludes]

/-- A queue is listed once that is bound to the address, is not its placeholder and is asked for. -/
theorem exists_listed_once {b : Broker} (hb : b.WellFormed) {queueName : String} {q : Queue}
    (hq : b.queues.get? queueName = some q)
    (hplaceholder : ∀ a, b.addresses.get? q.address = some a → a.placeholder ≠ some queueName)
    {durability : Durability} (hincludes : durability.includes q.options.durable = true)
    {items : List Subscription} (hlist : list Broker.handle durability q.address b = .ok items) :
    ∃ entry, items.filter (fun entry => entry.queueName = queueName) = [entry] ∧
      Reports b ⟨queueName, q.options⟩ entry := by
  unfold list at hlist
  rw [bind_eq_ok_iff] at hlist
  obtain ⟨queues, hqueues, hlist⟩ := hlist
  rw [mapError_eq_ok_iff, mapM_eq_ok_iff] at hlist
  have hfiltered : List.Forall₂ (Reports b) (queues.filter fun queue => queue.name = queueName)
      (items.filter fun entry => entry.queueName = queueName) := by
    refine List.rel_filter (fun queue entry hreports => ?_) (hlist.imp fun _ _ => reports_of_ofQueue)
    dsimp only
    rw [hreports.queueName]
  rw [filter_subscriptionQueues hb hq hplaceholder hincludes hqueues,
    List.forall₂_cons_left_iff] at hfiltered
  obtain ⟨entry, rest, hreports, hrest, heq⟩ := hfiltered
  rw [List.forall₂_nil_left_iff.mp hrest] at heq
  exact ⟨entry, heq, hreports⟩

/-! ### Counting and dropping -/

variable {b : Broker} {client name : String}

/-- The queue of a durable subscription is found under the client and the name. -/
theorem durableQueue_of_get? (hclient : client ≠ "") (hname : name ≠ "") {q : Queue}
    (hq : b.queues.get? (durableQueueName (some client) name) = some q) :
    durableQueue Broker.handle client name b = .ok (durableQueueName (some client) name) := by
  have hcontrol : Broker.handle.queueControl (durableQueueName (some client) name) b =
      some ⟨durableQueueName (some client) name, q.options⟩ := by
    simp [Broker.handle, Broker.queueControl, hq]
  simp [durableQueue, hclient, hname, hcontrol]

/-- A durable subscription is counted like its queue when nothing is selected. -/
theorem countMessages_of_get? (hclient : client ≠ "") (hname : name ≠ "") {q : Queue}
    (hq : b.queues.get? (durableQueueName (some client) name) = some q) :
    countMessages Broker.handle client name none b =
      (b.messageCount (durableQueueName (some client) name)).mapError .broker := by
  rw [countMessages, durableQueue_of_get? hclient hname hq]
  rfl

/-- A durable subscription that is there can be dropped. -/
theorem dropDurable_succeeds (hclient : client ≠ "") (hname : name ≠ "") {q : Queue}
    (hq : b.queues.get? (durableQueueName (some client) name) = some q) :
    (dropDurable Broker.handle client name b).1 = .ok () := by
  rw [dropDurable, durableQueue_of_get? hclient hname hq]
  simp [Broker.handle, Broker.destroyQueue, Broker.queue, Broker.record, hq]
  rfl

/-- Dropping a durable subscription leaves every queue of another name as it is. -/
theorem get?_dropDurable_of_ne {other : String} (hother : other ≠ durableQueueName (some client) name) :
    (dropDurable Broker.handle client name b).2.queues.get? other = b.queues.get? other := by
  unfold dropDurable
  split
  next => rfl
  next queueName hqueue =>
    obtain ⟨-, -, rfl⟩ := durableQueue_eq_ok hqueue
    change (b.destroyQueue _ true).2.queues.get? other = _
    rcases b.destroyQueue_cases (durableQueueName (some client) name) true with heq | heq
    · rw [heq]
    · rw [heq, Catalog.get?_erase, if_neg hother]

/-- A durable subscription that is dropped takes its queue along. -/
theorem get?_dropDurable (hclient : client ≠ "") (hname : name ≠ "") :
    (dropDurable Broker.handle client name b).2.queues.get? (durableQueueName (some client) name) =
      none := by
  have hdrops : (Call.onAddress "" (.dropDurable client name)).Drops
      (durableQueueName (some client) name) := ⟨client, name, rfl, hclient, hname, rfl⟩
  exact get?_carryOut_of_drops hdrops

/-- A durable subscription is addressed by the client and the name under which it is listed: it is listed
once, is counted as listed, and can be dropped, which destroys its queue and no other, while dropping any
other leaves it alone. -/
theorem durable_subscription_identified (hb : b.Reachable) (hclient : client ≠ "") (hname : name ≠ "")
    {q : Queue} (hq : b.queues.get? (durableQueueName (some client) name) = some q)
    (hdurable : q.options.durable = true) (hmulticast : q.options.routing = .multicast)
    (hplaceholder : ∀ a, b.addresses.get? q.address = some a →
      a.placeholder ≠ some (durableQueueName (some client) name)) :
    (∀ durability, durability = .all ∨ durability = .durable → ∀ items,
      list Broker.handle durability q.address b = .ok items →
        ∃ entry, items.filter (fun entry => entry.queueName = durableQueueName (some client) name) =
            [entry] ∧ entry.client = some client ∧ entry.name = some name ∧
          countMessages Broker.handle client name none b = .ok entry.messageCount) ∧
    ((dropDurable Broker.handle client name b).1 = .ok () ∧ ∀ other,
      (dropDurable Broker.handle client name b).2.queues.get? other =
        if other = durableQueueName (some client) name then none else b.queues.get? other) ∧
    ∀ client' name', client' ≠ "" → name' ≠ "" → (client', name') ≠ (client, name) →
      (dropDurable Broker.handle client' name' b).2.queues.get? (durableQueueName (some client) name) =
        some q := by
  refine ⟨fun durability hasked items hlist => ?_, ⟨dropDurable_succeeds hclient hname hq, ?_⟩, ?_⟩
  · have hincludes : durability.includes q.options.durable = true := by
      rw [hdurable]
      rcases hasked with rfl | rfl <;> rfl
    obtain ⟨entry, hentry, hreports⟩ :=
      exists_listed_once hb.wellFormed hq hplaceholder hincludes hlist
    have hidentity := hreports.identity
    rw [hdurable, hmulticast, Subscription.identity, decompose_durableQueueName hclient] at hidentity
    obtain ⟨hentryClient, hentryName⟩ := Prod.mk.inj (Except.ok.inj hidentity)
    refine ⟨entry, hentry, hentryClient.symm, hentryName.symm, ?_⟩
    rw [countMessages_of_get? hclient hname hq, hreports.messageCount]
    rfl
  · intro other
    split
    next hother => rw [hother, get?_dropDurable hclient hname]
    next hother => exact get?_dropDurable_of_ne hother
  · intro client' name' _ _ hdifferent
    rw [get?_dropDurable_of_ne, hq]
    intro hsame
    obtain ⟨rfl, rfl⟩ := durableQueueName_inj hsame
    exact hdifferent rfl

/-- A client with a dot in its name is told from one that is named like the part before the dot. -/
theorem durable_subscription_identified_dotted :
    (list Broker.handle .all "t" (Broker.run [.createQueue "t" "a\\.b.s" {},
        .send "t" (.ofBody "text" 0)]) =
      .ok [⟨"a\\.b.s", true, 1, 0, [], some "a.b", none, some "s"⟩] ∧
      countMessages Broker.handle "a.b" "s" none (Broker.run [.createQueue "t" "a\\.b.s" {},
        .send "t" (.ofBody "text" 0)]) = .ok 1) ∧
    (dropDurable Broker.handle "a.b" "s" (Broker.run [.createQueue "t" "a\\.b.s" {},
      .send "t" (.ofBody "text" 0)])).1 = .ok () ∧
    (dropDurable Broker.handle "a" "b.s" (Broker.run [.createQueue "t" "a\\.b.s" {},
      .send "t" (.ofBody "text" 0)])).2.queues.get? (durableQueueName (some "a.b") "s") =
        some ⟨"t", {}, [{ Message.ofBody "text" 0 with id := 1 }], [], []⟩ := by
  have hq : (Broker.run [.createQueue "t" "a\\.b.s" {},
      .send "t" (.ofBody "text" 0)]).queues.get? (durableQueueName (some "a.b") "s") =
        some ⟨"t", {}, [{ Message.ofBody "text" 0 with id := 1 }], [], []⟩ := by rfl
  have haddress : (Broker.run [.createQueue "t" "a\\.b.s" {},
      .send "t" (.ofBody "text" 0)]).addresses.get? "t" = some ⟨["a\\.b.s"], none, none⟩ := by decide +kernel
  have hlist : list Broker.handle .all "t" (Broker.run [.createQueue "t" "a\\.b.s" {},
      .send "t" (.ofBody "text" 0)]) =
        .ok [⟨"a\\.b.s", true, 1, 0, [], some "a.b", none, some "s"⟩] := by decide +kernel
  obtain ⟨hlisted, hdrop, hother⟩ := durable_subscription_identified ⟨_, rfl⟩
    (by decide : "a.b" ≠ "") (by decide : "s" ≠ "") hq rfl rfl fun a ha => by
      obtain rfl := Option.some.inj (haddress.symm.trans ha)
      simp
  obtain ⟨entry, hentry, -, -, hcount⟩ := hlisted .all (Or.inl rfl) _ hlist
  have hone : [entry] = [⟨"a\\.b.s", true, 1, 0, [], some "a.b", none, some "s"⟩] := hentry.symm.trans rfl
  obtain rfl := List.singleton_inj.mp hone
  exact ⟨⟨hlist, hcount⟩, hdrop.1, hother "a" "b.s" (by decide) (by decide) (by decide)⟩

end BrokerAdmin.Subscription
