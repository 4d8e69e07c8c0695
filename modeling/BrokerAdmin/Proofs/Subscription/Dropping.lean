import BrokerAdmin.Proofs.Subscription.Identity

/-!
# What dropping a durable subscription destroys

A durable subscription is dropped by destroying the queue that is named after it. Dropping looks at the
name alone, so the queue may be of any kind: not durable, of anycast routing, or the placeholder of its
address. Listing looks at the kind. The two are compared here: the queue that is destroyed is one
that listing reports as this subscription exactly when its kind is that of a durable subscription.
-/

namespace BrokerAdmin.Subscription

/-- A queue is of the kind that durable subscriptions have: it is durable and multicast, and it is not what
keeps its address alive. -/
structure IsDurable (b : Broker) (queueName : String) (q : Queue) : Prop where
  durable : q.options.durable = true
  multicast : q.options.routing = .multicast
  notPlaceholder : ∀ a, b.addresses.get? q.address = some a → a.placeholder ≠ some queueName

variable {b : Broker} {client name : String}

/-- What is listed as durable is reported of a queue that is durable and no placeholder. -/
theorem exists_reports_of_mem_list {address : String} {items : List Subscription} {entry : Subscription}
    (hlist : list Broker.handle .durable address b = .ok items) (hentry : entry ∈ items) :
    ∃ q, b.queues.get? entry.queueName = some q ∧ q.options.durable = true ∧
      (∀ a, b.addresses.get? address = some a → a.placeholder ≠ some entry.queueName) ∧
        Reports b ⟨entry.queueName, q.options⟩ entry := by
  unfold list at hlist
  rw [bind_eq_ok_iff] at hlist
  obtain ⟨queues, hqueues, hlist⟩ := hlist
  obtain ⟨⟨queueName, options⟩, hqueue, hofQueue⟩ :=
    exists_of_mem_mapM_eq_ok (mapError_eq_ok_iff.mp hlist) hentry
  have hreports := reports_of_ofQueue hofQueue
  obtain rfl : entry.queueName = queueName := hreports.queueName
  cases ha : b.addresses.get? address with
  | none => simp [subscriptionQueues, addressControl, Broker.handle, Broker.addressControl, ha, bind,
      Except.bind] at hqueues
  | some a =>
    rw [subscriptionQueues_eq ha] at hqueues
    rw [← Except.ok.inj hqueues, List.mem_filter, List.mem_filterMap] at hqueue
    obtain ⟨⟨other, hother, hcontrol⟩, hdurable⟩ := hqueue
    obtain ⟨q, hq, heq⟩ := Option.map_eq_some_iff.mp hcontrol
    obtain ⟨rfl, rfl⟩ := QueueControl.mk.inj heq
    refine ⟨q, hq, hdurable, fun a' ha' => ?_, hreports⟩
    obtain rfl := Option.some.inj ha'
    simpa using (List.mem_filter.mp hother).2

/-- A queue is listed as the durable subscription that it is named after exactly when it is of the kind of a
durable subscription. -/
theorem listed_iff_isDurable (hb : b.WellFormed) (hclient : client ≠ "") {q : Queue}
    (hq : b.queues.get? (durableQueueName (some client) name) = some q) {items : List Subscription}
    (hlist : list Broker.handle .durable q.address b = .ok items) :
    (∃ entry ∈ items, entry.queueName = durableQueueName (some client) name ∧
        entry.client = some client ∧ entry.name = some name) ↔
      IsDurable b (durableQueueName (some client) name) q := by
  constructor
  · rintro ⟨entry, hentry, hqueueName, hentryClient, hentryName⟩
    obtain ⟨q', hq', hdurable, hplaceholder, hreports⟩ := exists_reports_of_mem_list hlist hentry
    rw [hqueueName] at hq' hplaceholder
    obtain rfl : q = q' := Option.some.inj (hq.symm.trans hq')
    refine ⟨hdurable, ?_, hplaceholder⟩
    -- of an anycast queue no client is reported
    cases hrouting : q.options.routing with
    | multicast => rfl
    | anycast =>
      have hidentity := hreports.identity
      rw [hdurable, hrouting, hentryClient] at hidentity
      cases hidentity
  · intro hkind
    have hincludes : Durability.durable.includes q.options.durable = true := hkind.durable
    obtain ⟨entry, hentry, hreports⟩ := exists_listed_once hb hq hkind.notPlaceholder hincludes hlist
    obtain ⟨hmem, hqueueName⟩ := List.mem_filter.mp (hentry ▸ List.mem_singleton_self entry)
    have hidentity := hreports.identity
    rw [hkind.durable, hkind.multicast, identity, decompose_durableQueueName hclient] at hidentity
    obtain ⟨hentryClient, hentryName⟩ := Prod.mk.inj (Except.ok.inj hidentity)
    exact ⟨entry, hmem, of_decide_eq_true hqueueName, hentryClient.symm, hentryName.symm⟩

/-- A durable subscription that is dropped has both parts of its name, and there was a queue of that name. -/
theorem exists_queue_of_dropDurable (hdrop : (dropDurable Broker.handle client name b).1 = .ok ()) :
    client ≠ "" ∧ name ≠ "" ∧ ∃ q, b.queues.get? (durableQueueName (some client) name) = some q := by
  unfold dropDurable at hdrop
  split at hdrop
  next => contradiction
  next queueName hqueue =>
    obtain ⟨hclient, hname, rfl⟩ := durableQueue_eq_ok hqueue
    have hdestroyed : (b.destroyQueue (durableQueueName (some client) name) true).1 = .ok () :=
      mapError_eq_ok_iff.mp hdrop
    refine ⟨hclient, hname, ?_⟩
    cases hq : b.queues.get? (durableQueueName (some client) name) with
    | some q => exact ⟨q, rfl⟩
    | none => simp [Broker.destroyQueue, Broker.queue, Broker.record, hq] at hdestroyed

/-- Dropping a durable subscription succeeds exactly when both parts of its name are given and there is a
queue of that name, whatever the kind of the queue is. That queue is destroyed and no other, and it was
listed as this durable subscription just when it was of the kind of one. -/
theorem dropDurable_destroys_subscription_iff (hb : b.Reachable) :
    ((dropDurable Broker.handle client name b).1 = .ok () ↔
      client ≠ "" ∧ name ≠ "" ∧ ∃ q, b.queues.get? (durableQueueName (some client) name) = some q) ∧
    ((dropDurable Broker.handle client name b).1 = .ok () →
      ∀ q, b.queues.get? (durableQueueName (some client) name) = some q →
        (∀ other, (dropDurable Broker.handle client name b).2.queues.get? other =
          if other = durableQueueName (some client) name then none else b.queues.get? other) ∧
        ∀ items, list Broker.handle .durable q.address b = .ok items →
          ((∃ entry ∈ items, entry.queueName = durableQueueName (some client) name ∧
              entry.client = some client ∧ entry.name = some name) ↔
            IsDurable b (durableQueueName (some client) name) q)) := by
  refine ⟨⟨exists_queue_of_dropDurable, ?_⟩, fun hdrop q hq => ?_⟩
  · rintro ⟨hclient, hname, q, hq⟩
    exact dropDurable_succeeds hclient hname hq
  · obtain ⟨hclient, hname, -⟩ := exists_queue_of_dropDurable hdrop
    refine ⟨fun other => ?_, fun items => listed_iff_isDurable hb.wellFormed hclient hq⟩
    split
    next hother => rw [hother, get?_dropDurable hclient hname]
    next hother => exact get?_dropDurable_of_ne hother

/-- A queue that is durable is dropped as the subscription that it is listed as. -/
theorem dropDurable_destroys_subscription_iff_listed :
    let b := Broker.run [.createQueue "t" "c.s" {}]
    b.Reachable ∧ (dropDurable Broker.handle "c" "s" b).1 = .ok () ∧
      list Broker.handle .durable "t" b = .ok [⟨"c.s", true, 0, 0, [], some "c", none, some "s"⟩] ∧
      IsDurable b (durableQueueName (some "c") "s") (Queue.create "t" {}) := by
  intro b
  have hreachable : b.Reachable := ⟨_, rfl⟩
  have hq : b.queues.get? (durableQueueName (some "c") "s") = some (Queue.create "t" {}) := by rfl
  have hlist : list Broker.handle .durable "t" b =
      .ok [⟨"c.s", true, 0, 0, [], some "c", none, some "s"⟩] := by decide +kernel
  obtain ⟨hsucceeds, hdestroys⟩ := @dropDurable_destroys_subscription_iff b "c" "s" hreachable
  have hdrop := hsucceeds.mpr ⟨by decide, by decide, _, hq⟩
  have hlisted := (hdestroys hdrop _ hq).2 _ hlist
  exact ⟨hreachable, hdrop, hlist, hlisted.mp ⟨_, List.mem_singleton_self _, by decide, rfl, rfl⟩⟩

/-- A queue that is not durable is destroyed under a name under which no durable subscription is listed. -/
theorem dropDurable_destroys_nonDurable :
    let b := Broker.run [.createQueue "t" "c.s" { durable := false }]
    b.Reachable ∧ b.queues.get? "c.s" = some (Queue.create "t" { durable := false }) ∧
      list Broker.handle .durable "t" b = .ok [] ∧ (dropDurable Broker.handle "c" "s" b).1 = .ok () ∧
      (dropDurable Broker.handle "c" "s" b).2.queues.get? "c.s" = none := by
  refine ⟨⟨_, rfl⟩, ?_, ?_, ?_, ?_⟩ <;> rfl

end BrokerAdmin.Subscription
