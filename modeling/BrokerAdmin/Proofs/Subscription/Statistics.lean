import BrokerAdmin.Proofs.Subscription.Listing
import Mathlib.Algebra.GroupWithZero.Nat
import Mathlib.Data.List.Induction

/-!
# Listings and statistics agree

The durable subscriptions of an address and those that are not are asked for apart, and so are all of them
and the statistics; each time the broker is read anew. Where all can be listed, the two other listings are
what they are among all, and the statistics count these entries. Which queues are asked for is settled before
the step that can fail, so a listing of some may succeed where that of all fails, but not the other way.

The counts are natural numbers, so nothing is said of totals that a machine word does not hold.
-/

namespace BrokerAdmin.Subscription

/-! ### The listings -/

variable {b : Broker} {address : String}

/-- The queues that are asked for are found among all that there are. -/
theorem subscribed_eq_filter (b : Broker) (durability : Durability) (a : Address) :
    subscribed b durability a =
      (subscribed b .all a).filter fun item => durability.includes item.2.options.durable := by
  simp [subscribed, List.filter_filter, Durability.includes, Bool.and_comm]

/-- Where all subscriptions are listed, those of one durability are listed as they are among all. -/
theorem list_eq_filter (hb : b.Reachable) {items : List Subscription}
    (hall : list Broker.handle .all address b = .ok items) (durability : Durability) :
    list Broker.handle durability address b =
      .ok (items.filter fun entry => durability.includes entry.durable) := by
  obtain ⟨a, ha, hitems⟩ := exists_mapM_of_list_eq_ok hb hall
  rw [list_eq_mapM hb ha, mapError_eq_ok_iff, subscribed_eq_filter]
  refine mapM_filter_eq_ok hitems fun item entry hentry => ?_
  rw [(entryOf_eq_ok_iff.mp hentry).durable]

/-- The messages in delivery are among those that are counted. -/
theorem deliveringCount_le_messageCount (hb : b.Reachable) {durability : Durability}
    {items : List Subscription} (hlist : list Broker.handle durability address b = .ok items)
    {entry : Subscription} (hentry : entry ∈ items) : entry.deliveringCount ≤ entry.messageCount := by
  obtain ⟨a, -, hitems⟩ := exists_mapM_of_list_eq_ok hb hlist
  obtain ⟨item, -, hitem⟩ := exists_of_mem_mapM_eq_ok hitems hentry
  have hdescribes := entryOf_eq_ok_iff.mp hitem
  rw [hdescribes.deliveringCount, hdescribes.messageCount]
  exact Nat.le_add_left _ _

/-! ### The counts -/

namespace Statistics

/-- The counts are those of several subscriptions, and each total is the sum of its two parts. -/
structure Counts (t : Statistics) (items : List Subscription) : Prop where
  subscriptions : t.subscriptions = items.length
  durableSubscriptions : t.durableSubscriptions = (items.filter (·.durable)).length
  nonDurableSubscriptions : t.nonDurableSubscriptions = (items.filter (!·.durable)).length
  messages : t.messages = (items.map messageCount).sum
  durableMessages : t.durableMessages = ((items.filter (·.durable)).map messageCount).sum
  nonDurableMessages : t.nonDurableMessages = ((items.filter (!·.durable)).map messageCount).sum
  delivering : t.delivering = (items.map deliveringCount).sum
  subscriptions_parts : t.subscriptions = t.durableSubscriptions + t.nonDurableSubscriptions
  messages_parts : t.messages = t.durableMessages + t.nonDurableMessages

/-- One more subscription is counted once in all and once on its side. -/
theorem Counts.record {t : Statistics} {items : List Subscription} (h : t.Counts items)
    (s : Subscription) : (t.record s).Counts (items ++ [s]) := by
  have hsubscriptions := h.subscriptions_parts
  have hmessages := h.messages_parts
  unfold Statistics.record
  -- On either side the lists and the counts grow by the same.
  cases hdurable : s.durable <;> constructor <;>
    simp [hdurable, ← h.subscriptions, ← h.durableSubscriptions, ← h.nonDurableSubscriptions,
      ← h.messages, ← h.durableMessages, ← h.nonDurableMessages, ← h.delivering] <;> omega

/-- The counts over a list are those of its subscriptions. -/
theorem counts_ofList (items : List Subscription) : (ofList items).Counts items := by
  -- The list grows at the end where the fold adds to the counts.
  induction items using List.reverseRecOn with
  | nil => constructor <;> rfl
  | append_singleton items s ih =>
    rw [ofList, List.foldl_concat]
    exact ih.record s

end Statistics

/-- The listings of an address and its statistics agree. Where all subscriptions are listed, those that are
durable and those that are not are listed as they are among all, and the statistics count them; where they
are not, the statistics fail for the same reason. -/
theorem listings_agree (hb : b.Reachable) (address : String) :
    (∀ items, list Broker.handle .all address b = .ok items →
      (list Broker.handle .durable address b = .ok (items.filter (·.durable)) ∧
        list Broker.handle .nonDurable address b = .ok (items.filter (!·.durable))) ∧
      (∀ entry ∈ items, entry.deliveringCount ≤ entry.messageCount) ∧
      ∃ t, statistics Broker.handle address b = .ok t ∧ t.Counts items) ∧
    ∀ e, list Broker.handle .all address b = .error e →
      statistics Broker.handle address b = .error e := by
  refine ⟨fun items hall => ⟨⟨list_eq_filter hb hall .durable, list_eq_filter hb hall .nonDurable⟩,
    fun entry => deliveringCount_le_messageCount hb hall, Statistics.ofList items, ?_,
    Statistics.counts_ofList items⟩, fun e hall => ?_⟩
  · rw [statistics, hall]
    rfl
  · rw [statistics, hall]
    rfl

/-- A message is counted once for each subscription, and a queue with a name of no subscription prevents the
statistics as it prevents the listing. -/
theorem listings_agree_mixed :
    (list Broker.handle .durable "t" (Broker.run [.createQueue "t" "c.s" {},
        .createQueue "t" "e" { durable := false }, .send "t" (.ofBody "text" 0), .receive "c.s"]) =
        .ok [⟨"c.s", true, 1, 1, [], some "c", none, some "s"⟩] ∧
      ∃ t, statistics Broker.handle "t" (Broker.run [.createQueue "t" "c.s" {},
          .createQueue "t" "e" { durable := false }, .send "t" (.ofBody "text" 0), .receive "c.s"]) =
          .ok t ∧
        t.subscriptions = 2 ∧ t.durableMessages = 1 ∧ t.nonDurableMessages = 1 ∧ t.delivering = 1) ∧
    statistics Broker.handle "t" (Broker.run [.createQueue "t" "a.b.c" {}]) =
      .error (.listing "t" (.queueName ⟨"a.b.c", .manySeparators⟩)) := by
  have hall : list Broker.handle .all "t" (Broker.run [.createQueue "t" "c.s" {},
      .createQueue "t" "e" { durable := false }, .send "t" (.ofBody "text" 0), .receive "c.s"]) =
        .ok [⟨"c.s", true, 1, 1, [], some "c", none, some "s"⟩,
          ⟨"e", false, 1, 0, [], some "ActiveMQ", none, some "ActiveMQ"⟩] := by decide +kernel
  have hfails : list Broker.handle .all "t" (Broker.run [.createQueue "t" "a.b.c" {}]) =
      .error (.listing "t" (.queueName ⟨"a.b.c", .manySeparators⟩)) := by decide +kernel
  obtain ⟨⟨hdurable, -⟩, -, t, ht, hcounts⟩ := (listings_agree ⟨_, rfl⟩ "t").1 _ hall
  exact ⟨⟨hdurable, t, ht, hcounts.subscriptions, hcounts.durableMessages, hcounts.nonDurableMessages,
    hcounts.delivering⟩, (listings_agree ⟨_, rfl⟩ "t").2 _ hfails⟩

end BrokerAdmin.Subscription
