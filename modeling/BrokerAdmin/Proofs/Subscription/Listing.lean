import BrokerAdmin.Proofs.Broker.Consumers
import BrokerAdmin.Proofs.Subscription.Identity

/-!
# What is listed

The subscriptions of an address are listed all together or not at all. A listing has one entry for each queue
that is asked for, in the order in which the queues were created, and each entry says of its queue what the
broker holds. The only thing that prevents a listing is the name of a durable multicast queue that no
subscription has, and the first such queue is the one that is named.

Two things that could go wrong never do in a reachable broker. An address lists no queue that is gone, so none
is passed over; and the consumers of a queue, which reach the listing through a text, are read back from it.
-/

namespace BrokerAdmin

/-- The queues that an address lists, with their names, in the order of their creation. -/
def Broker.queuesOf (b : Broker) (a : Address) : List (String × Queue) :=
  a.queues.filterMap fun name => (b.queues.get? name).map (name, ·)

/-- Every queue that an address of a well-formed broker lists is there. -/
theorem Broker.WellFormed.queuesOf_names {b : Broker} (hb : b.WellFormed) {address : String} {a : Address}
    (ha : b.addresses.get? address = some a) : (b.queuesOf a).map Prod.fst = a.queues := by
  have hthere : ∀ name ∈ a.queues,
      ((b.queues.get? name).map (name, ·)).map Prod.fst = some name := by
    intro name hname
    obtain ⟨q, hq, -⟩ := (hb.lists_iff address name).mp ⟨a, ha, hname⟩
    rw [hq]
    rfl
  rw [Broker.queuesOf, List.map_filterMap, List.filterMap_congr hthere, List.filterMap_some]

namespace Subscription

/-- The queues behind the subscriptions of an address that are asked for: those that the address lists, but
for its placeholder, of the durability that is meant. -/
def subscribed (b : Broker) (durability : Durability) (a : Address) : List (String × Queue) :=
  (b.queuesOf a).filter fun item =>
    a.placeholder != some item.1 && durability.includes item.2.options.durable

/-- A listed subscription says of its queue what the broker holds. -/
structure Describes (item : String × Queue) (entry : Subscription) : Prop where
  queueName : entry.queueName = item.1
  durable : entry.durable = item.2.options.durable
  filter : entry.filter = item.2.options.filter
  consumers : entry.consumers = item.2.consumers
  messageCount : entry.messageCount = item.2.messages.length + item.2.delivering.length
  deliveringCount : entry.deliveringCount = item.2.delivering.length
  identity : identity item.1 item.2.options.durable item.2.options.routing =
    .ok (entry.client, entry.name)

/-- A durable multicast queue is not named after a subscription. -/
structure Misnamed (item : String × Queue) (e : NameError) : Prop where
  durable : item.2.options.durable = true
  multicast : item.2.options.routing = .multicast
  refused : decompose item.1 = .error e

/-- The first of several queues that are not named after a subscription. -/
def FirstMisnamed (items : List (String × Queue)) (e : NameError) : Prop :=
  ∃ before item after, items = before ++ item :: after ∧
    (∀ other ∈ before, ∀ e, ¬ Misnamed other e) ∧ Misnamed item e

/-- The entry that a queue has in a listing. -/
def entryOf (item : String × Queue) : Except ListingFault Subscription :=
  ((identity item.1 item.2.options.durable item.2.options.routing).mapError .queueName).map
    fun (client, name) =>
      ⟨item.1, item.2.options.durable, item.2.messages.length + item.2.delivering.length,
        item.2.delivering.length, item.2.consumers, client, item.2.options.filter, name⟩

/-! ### One queue -/

/-- A queue has no client and name exactly when it is not named after a subscription. -/
theorem identity_eq_error_iff {item : String × Queue} {e : NameError} :
    identity item.1 item.2.options.durable item.2.options.routing = .error e ↔ Misnamed item e := by
  constructor
  · intro h
    unfold identity at h
    split at h
    next hdurable hmulticast =>
      refine ⟨hdurable, hmulticast, ?_⟩
      cases hname : decompose item.1 with
      | ok pair => simp [hname, Except.map] at h
      | error e' =>
        rw [hname] at h
        exact congrArg Except.error (Except.error.inj h)
    next => contradiction
    next => contradiction
  · rintro ⟨hdurable, hmulticast, hrefused⟩
    rw [hdurable, hmulticast, Subscription.identity, hrefused]
    rfl

/-- The entry of a queue describes it. -/
theorem entryOf_eq_ok_iff {item : String × Queue} {entry : Subscription} :
    entryOf item = .ok entry ↔ Describes item entry := by
  simp only [entryOf, map_eq_ok_iff, mapError_eq_ok_iff, Prod.exists]
  constructor
  · rintro ⟨client, name, hidentity, rfl⟩
    exact ⟨rfl, rfl, rfl, rfl, rfl, rfl, hidentity⟩
  · rintro ⟨hqueueName, hdurable, hfilter, hconsumers, hmessages, hdelivering, hidentity⟩
    refine ⟨entry.client, entry.name, hidentity, ?_⟩
    rw [← hqueueName, ← hdurable, ← hfilter, ← hconsumers, ← hmessages, ← hdelivering]

/-- A queue has no entry exactly when it is not named after a subscription. -/
theorem entryOf_eq_error_iff {item : String × Queue} {fault : ListingFault} :
    entryOf item = .error fault ↔ ∃ e, Misnamed item e ∧ fault = .queueName e := by
  simp only [← identity_eq_error_iff, entryOf]
  cases identity item.1 item.2.options.durable item.2.options.routing with
  | ok pair => exact ⟨nofun, fun ⟨_, h, _⟩ => nomatch h⟩
  | error e =>
    change (Except.error (ListingFault.queueName e) : Except ListingFault Subscription) = _ ↔ _
    simp [eq_comm]

/-- A queue has an entry unless it is not named after a subscription. -/
theorem exists_entryOf_iff {item : String × Queue} :
    (∃ entry, entryOf item = .ok entry) ↔ ∀ e, ¬ Misnamed item e := by
  constructor
  · rintro ⟨entry, hentry⟩ e hmisnamed
    rw [entryOf_eq_error_iff.mpr ⟨e, hmisnamed, rfl⟩] at hentry
    contradiction
  · intro hnamed
    cases hentry : entryOf item with
    | ok entry => exact ⟨entry, rfl⟩
    | error fault =>
      obtain ⟨e, hmisnamed, -⟩ := entryOf_eq_error_iff.mp hentry
      exact absurd hmisnamed (hnamed e)

/-- Entries are collected up to the first queue that is not named after a subscription. -/
theorem mapM_entryOf_eq_error_iff {items : List (String × Queue)} {fault : ListingFault} :
    items.mapM entryOf = .error fault ↔ ∃ e, FirstMisnamed items e ∧ fault = .queueName e := by
  simp only [mapM_eq_error_iff, exists_entryOf_iff, entryOf_eq_error_iff]
  constructor
  · rintro ⟨before, item, after, hitems, hbefore, e, hitem, hfault⟩
    exact ⟨e, ⟨before, item, after, hitems, hbefore, hitem⟩, hfault⟩
  · rintro ⟨e, ⟨before, item, after, hitems, hbefore, hitem⟩, hfault⟩
    exact ⟨before, item, after, hitems, hbefore, e, hitem, hfault⟩

/-- Where some queue is not named after a subscription, a first one is not. -/
theorem exists_firstMisnamed_iff {items : List (String × Queue)} :
    (∃ e, FirstMisnamed items e) ↔ ∃ item ∈ items, ∃ e, Misnamed item e := by
  constructor
  · rintro ⟨e, before, item, after, rfl, -, hitem⟩
    exact ⟨item, List.mem_append_cons_self, e, hitem⟩
  · intro h
    obtain ⟨before, item, after, hitems, hbefore, e, hitem⟩ := exists_first h
    exact ⟨e, before, item, after, hitems, fun other hother e h => hbefore other hother ⟨e, h⟩, hitem⟩

variable {b : Broker} {address : String} {a : Address}

/-- What is reported of a queue is its entry: the broker has the counts, and the consumers are read back. -/
theorem ofQueue_eq_entryOf (hb : b.Reachable) {name : String} {q : Queue}
    (hq : b.queues.get? name = some q) :
    ofQueue Broker.handle b ⟨name, q.options⟩ = entryOf (name, q) := by
  have hqueue : ∀ {α : Type} (f : Queue → α), (b.queue name).map f = .ok (f q) := by
    intro α f
    rw [Broker.queue, hq]
    rfl
  have htext : Broker.handle.consumersText name b = .ok (Consumer.listText q.consumers) := hqueue _
  have hmessages : Broker.handle.messageCount name b =
      .ok (q.messages.length + q.delivering.length) := hqueue _
  have hdelivering : Broker.handle.deliveringCount name b = .ok q.delivering.length := hqueue _
  have hconsumers : Consumer.ofListText? (Consumer.listText q.consumers) = some q.consumers :=
    Consumer.ofListText?_listText (hb.isTimed_of_mem hq)
  unfold ofQueue entryOf
  cases identity name q.options.durable q.options.routing with
  | error e => rfl
  | ok pair =>
    rw [htext, hmessages, hdelivering]
    dsimp only [Except.mapError, bind, Except.bind]
    rw [hconsumers]
    rfl

/-! ### All queues of an address -/

/-- The queues that a listing asks the broker for are those behind the subscriptions. -/
theorem subscriptionQueues_eq_map (ha : b.addresses.get? address = some a) (durability : Durability) :
    subscriptionQueues Broker.handle durability address b =
      .ok ((subscribed b durability a).map fun item => ⟨item.1, item.2.options⟩) := by
  rw [subscriptionQueues_eq ha, subscribed, Broker.queuesOf, List.filter_filterMap, List.filterMap_filter,
    List.filter_filterMap, List.map_filterMap]
  congr 2
  funext name
  unfold Broker.queueControl
  cases b.queues.get? name with
  | none => by_cases h : a.placeholder = some name <;> simp [h]
  | some q =>
    by_cases h : a.placeholder = some name
    · simp [Option.filter, h]
    · cases hincludes : durability.includes q.options.durable <;> simp [Option.filter, h, hincludes]

/-- A queue behind a subscription is in the broker. -/
theorem get?_of_mem_subscribed {durability : Durability} {item : String × Queue}
    (hitem : item ∈ subscribed b durability a) : b.queues.get? item.1 = some item.2 := by
  obtain ⟨name, -, hname⟩ := List.mem_filterMap.mp (List.mem_of_mem_filter hitem)
  obtain ⟨q, hq, rfl⟩ := Option.map_eq_some_iff.mp hname
  exact hq

/-- A listing collects the entries of the queues behind the subscriptions. -/
theorem list_eq_mapM (hb : b.Reachable) (ha : b.addresses.get? address = some a)
    (durability : Durability) :
    list Broker.handle durability address b =
      ((subscribed b durability a).mapM entryOf).mapError (.listing address) := by
  have hentries : ∀ item ∈ subscribed b durability a,
      (ofQueue Broker.handle b ∘ fun item => ⟨item.1, item.2.options⟩) item = entryOf item :=
    fun item hitem => ofQueue_eq_entryOf hb (get?_of_mem_subscribed hitem)
  rw [list, subscriptionQueues_eq_map ha]
  change Except.mapError (Error.listing address) (List.mapM _ (List.map _ _)) = _
  rw [List.mapM_map, mapM_congr hentries]

/-- A listing succeeds with an entry for each queue that describes it. -/
theorem list_eq_ok_iff (hb : b.Reachable) (ha : b.addresses.get? address = some a)
    {durability : Durability} {entries : List Subscription} :
    list Broker.handle durability address b = .ok entries ↔
      List.Forall₂ Describes (subscribed b durability a) entries := by
  rw [list_eq_mapM hb ha, mapError_eq_ok_iff, mapM_eq_ok_iff]
  simp only [entryOf_eq_ok_iff]

/-- A listing fails at the first queue that is not named after a subscription. -/
theorem list_eq_error_iff (hb : b.Reachable) (ha : b.addresses.get? address = some a)
    {durability : Durability} {error : Error} :
    list Broker.handle durability address b = .error error ↔
      ∃ e, FirstMisnamed (subscribed b durability a) e ∧ error = .listing address (.queueName e) := by
  rw [list_eq_mapM hb ha]
  simp only [mapError_eq_error_iff, mapM_entryOf_eq_error_iff]
  constructor
  · rintro ⟨fault, ⟨e, hfirst, rfl⟩, rfl⟩
    exact ⟨e, hfirst, rfl⟩
  · rintro ⟨e, hfirst, rfl⟩
    exact ⟨_, ⟨e, hfirst, rfl⟩, rfl⟩

/-- Without the address there is nothing to list. -/
theorem list_eq_of_none (ha : b.addresses.get? address = none) (durability : Durability) :
    list Broker.handle durability address b = .error (.addressNotFound address) := by
  have hcontrol : addressControl Broker.handle address b = .error (.addressNotFound address) := by
    simp [addressControl, Broker.handle, Broker.addressControl, ha]
  rw [list, subscriptionQueues, hcontrol]
  rfl

/-- What is listed are the entries of the queues of an address that is there. -/
theorem exists_mapM_of_list_eq_ok (hb : b.Reachable) {durability : Durability}
    {entries : List Subscription} (hlist : list Broker.handle durability address b = .ok entries) :
    ∃ a, b.addresses.get? address = some a ∧ (subscribed b durability a).mapM entryOf = .ok entries := by
  cases ha : b.addresses.get? address with
  | none =>
    rw [list_eq_of_none ha] at hlist
    contradiction
  | some a =>
    rw [list_eq_mapM hb ha, mapError_eq_ok_iff] at hlist
    exact ⟨a, rfl, hlist⟩

/-- Listing is exact. Without the address there is nothing to list. Otherwise none of its queues is passed
over, and either each queue that is asked for has the one entry that describes it, in the order of the
broker, or the first queue that is not named after a subscription is named. -/
theorem listing_exact (hb : b.Reachable) (durability : Durability) (address : String) :
    (list Broker.handle durability address b = .error (.addressNotFound address) ↔
      b.addresses.get? address = none) ∧
    ∀ a, b.addresses.get? address = some a →
      ((b.queuesOf a).map Prod.fst = a.queues ∧ a.queues.Nodup) ∧
      (∀ error, list Broker.handle durability address b = .error error ↔
        ∃ e, FirstMisnamed (subscribed b durability a) e ∧ error = .listing address (.queueName e)) ∧
      ((∃ error, list Broker.handle durability address b = .error error) ↔
        ∃ item ∈ subscribed b durability a, ∃ e, Misnamed item e) ∧
      ∀ entries, list Broker.handle durability address b = .ok entries ↔
        List.Forall₂ Describes (subscribed b durability a) entries := by
  refine ⟨?_, fun a ha => ?_⟩
  · cases ha : b.addresses.get? address with
    | none => simp [list_eq_of_none ha]
    | some a =>
      refine ⟨fun h => ?_, nofun⟩
      obtain ⟨e, -, h⟩ := (list_eq_error_iff hb ha).mp h
      contradiction
  refine ⟨⟨hb.wellFormed.queuesOf_names ha, hb.wellFormed.nodup address a ha⟩,
    fun error => list_eq_error_iff hb ha, ?_, fun entries => list_eq_ok_iff hb ha⟩
  simp only [list_eq_error_iff hb ha, ← exists_firstMisnamed_iff]
  constructor
  · rintro ⟨error, e, hfirst, -⟩
    exact ⟨e, hfirst⟩
  · rintro ⟨e, hfirst⟩
    exact ⟨_, e, hfirst, rfl⟩

/-- A placeholder may have any name, and so may a connection; another durable multicast queue may not. -/
theorem listing_exact_quoted :
    list Broker.handle .all "t" (Broker.run [.createTopicWithPlaceholder "t" "p.p.p",
        .createQueue "t" "c.s" {}, .addConsumer "c.s" "\"" "session"]) =
      .ok [⟨"c.s", true, 0, 0, [⟨"1", "\"", "session", false, 0⟩], some "c", none, some "s"⟩] ∧
    list Broker.handle .all "t" (Broker.run [.createTopicWithPlaceholder "t" "p.p.p",
        .createQueue "t" "c.s" {}, .createQueue "t" "a.b.c" {}]) =
      .error (.listing "t" (.queueName ⟨"a.b.c", .manySeparators⟩)) := by
  constructor
  · have haddress : (Broker.run [.createTopicWithPlaceholder "t" "p.p.p", .createQueue "t" "c.s" {},
        .addConsumer "c.s" "\"" "session"]).addresses.get? "t" =
          some ⟨["p.p.p", "c.s"], some "p.p.p", none⟩ := by decide +kernel
    have hqueues : subscribed (Broker.run [.createTopicWithPlaceholder "t" "p.p.p",
        .createQueue "t" "c.s" {}, .addConsumer "c.s" "\"" "session"]) .all
          ⟨["p.p.p", "c.s"], some "p.p.p", none⟩ =
        [("c.s", ⟨"t", {}, [], [], [⟨"1", "\"", "session", false, 0⟩]⟩)] := by rfl
    obtain ⟨-, -, -, hok⟩ := (listing_exact ⟨_, rfl⟩ .all "t").2 _ haddress
    rw [hok, hqueues]
    exact .cons ⟨rfl, rfl, rfl, rfl, rfl, rfl, by decide +kernel⟩ .nil
  · have haddress : (Broker.run [.createTopicWithPlaceholder "t" "p.p.p", .createQueue "t" "c.s" {},
        .createQueue "t" "a.b.c" {}]).addresses.get? "t" =
          some ⟨["p.p.p", "c.s", "a.b.c"], some "p.p.p", none⟩ := by decide +kernel
    have hqueues : subscribed (Broker.run [.createTopicWithPlaceholder "t" "p.p.p",
        .createQueue "t" "c.s" {}, .createQueue "t" "a.b.c" {}]) .all
          ⟨["p.p.p", "c.s", "a.b.c"], some "p.p.p", none⟩ =
        [("c.s", .create "t" {}), ("a.b.c", .create "t" {})] := by rfl
    obtain ⟨-, herror, -⟩ := (listing_exact ⟨_, rfl⟩ .all "t").2 _ haddress
    rw [herror, hqueues]
    refine ⟨_, ⟨[("c.s", .create "t" {})], _, [], rfl, fun other hother e hmisnamed => ?_,
      ⟨rfl, rfl, by decide +kernel⟩⟩, rfl⟩
    obtain rfl := List.mem_singleton.mp hother
    have hname : decompose "c.s" = .ok (some "c", "s") := by decide +kernel
    have hrefused := hmisnamed.refused
    rw [hname] at hrefused
    contradiction

end Subscription

end BrokerAdmin
