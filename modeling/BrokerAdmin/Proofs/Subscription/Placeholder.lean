import BrokerAdmin.Proofs.Subscription.Name
import BrokerAdmin.Proofs.Subscription.Reach

/-!
# What becomes of a placeholder under administration

A placeholder keeps the address of a topic alive. Dropping all subscriptions spares it, but dropping a
single one does not ask which queue it destroys: a placeholder that is named like the queue of a durable
subscription is destroyed when that subscription is dropped, on whatever address the call is made.

That is the only way in which administration loses a placeholder, and whether a sequence of calls keeps it
can be read off the calls. A placeholder named after the address of a topic has more than one separator in
its name, so no call can drop it.
-/

namespace BrokerAdmin

namespace Broker

/-- A queue is there, is bound to an address and is recorded as its placeholder. -/
def HasPlaceholder (b : Broker) (address name : String) : Prop :=
  (∃ a, b.addresses.get? address = some a ∧ a.placeholder = some name) ∧ b.Binds address name

/-- The recorded placeholder of an address is there and bound to the address. -/
theorem WellFormed.hasPlaceholder {b : Broker} (hb : b.WellFormed) {address name : String} {a : Address}
    (ha : b.addresses.get? address = some a) (hname : a.placeholder = some name) :
    b.HasPlaceholder address name := by
  have hlists : b.Lists address name := ⟨a, ha, hb.placeholder address a name ha hname⟩
  exact ⟨⟨a, ha, hname⟩, (hb.lists_iff address name).mp hlists⟩

/-- A placeholder stays with every queue where it is. -/
theorem HasPlaceholder.restocks {b b' : Broker} {address name : String}
    (h : b.HasPlaceholder address name) (hrestocks : Restocks b b') :
    b'.HasPlaceholder address name := by
  obtain ⟨hrecorded, q, hq, haddress⟩ := h
  obtain ⟨q', hq', haddress', -⟩ := hrestocks.queues.stays name q hq
  refine ⟨?_, q', hq', haddress'.trans haddress⟩
  rw [hrestocks.addresses]
  exact hrecorded

/-- A placeholder stays when an address is written that keeps it. -/
theorem HasPlaceholder.of_address {b b' : Broker} {address name other : String} {a a' : Address}
    (h : b.HasPlaceholder address name) (hqueues : b'.queues = b.queues)
    (ha : b.addresses.get? other = some a)
    (hget : ∀ address, b'.addresses.get? address =
      if address = other then some a' else b.addresses.get? address)
    (hplaceholder : a'.placeholder = a.placeholder) : b'.HasPlaceholder address name := by
  obtain ⟨⟨r, hr, hname⟩, hbinds⟩ := h
  refine ⟨?_, ?_⟩
  · rw [hget]
    by_cases haddress : address = other
    · subst haddress
      obtain rfl : a = r := Option.some.inj (ha.symm.trans hr)
      exact ⟨a', if_pos rfl, hplaceholder.trans hname⟩
    · exact ⟨r, (if_neg haddress).trans hr, hname⟩
  · rw [Binds, hqueues]
    exact hbinds

/-- A placeholder stays when another queue is destroyed. -/
theorem HasPlaceholder.destroyQueue {b : Broker} {address name other : String}
    (h : b.HasPlaceholder address name) (hother : other ≠ name) (removeConsumers : Bool) :
    (b.destroyQueue other removeConsumers).2.HasPlaceholder address name := by
  have hrecord : (b.record (.destroyQueue other removeConsumers)).HasPlaceholder address name := h
  rcases b.destroyQueue_eq other removeConsumers with heq | ⟨q, -, heq⟩
  · rw [heq]
    exact hrecord
  · rw [heq]
    obtain ⟨⟨a, ha, hname⟩, hbinds⟩ := hrecord
    refine ⟨?_, (binds_withoutQueue _ q.address other address name).mpr ⟨hbinds, hother.symm⟩⟩
    have hget := get?_withoutQueue (b.record (.destroyQueue other removeConsumers)) q.address other
      address
    by_cases haddress : address = q.address
    · rw [if_pos haddress, ha] at hget
      have hkept : (a.unbind other).placeholder = some name := by
        simp [Address.unbind, hname, hother.symm]
      exact ⟨a.unbind other, hget, hkept⟩
    · rw [if_neg haddress, ha] at hget
      exact ⟨a, hget, hname⟩

/-- A queue that is destroyed together with its consumers is gone. -/
theorem get?_destroyQueue (b : Broker) (name : String) :
    (b.destroyQueue name true).2.queues.get? name = none := by
  unfold destroyQueue
  dsimp only
  split
  next e hmissing =>
    unfold queue at hmissing
    cases hq : b.queues.get? name with
    | none => exact hq
    | some q => simp [record, hq] at hmissing
  next => simp

/-- A queue that is not there does not come by destroying queues. -/
theorem get?_destroyQueue_eq_none {b : Broker} {name : String} (hnone : b.queues.get? name = none)
    (other : String) (removeConsumers : Bool) :
    (b.destroyQueue other removeConsumers).2.queues.get? name = none := by
  rcases b.destroyQueue_eq other removeConsumers with heq | ⟨q, -, heq⟩
  · rw [heq]
    exact hnone
  · rw [heq]
    simp [withoutQueue, record, hnone]

/-- A queue that is not there is no placeholder. -/
theorem not_hasPlaceholder_of_get?_eq_none {b : Broker} {address name : String}
    (h : b.queues.get? name = none) : ¬ b.HasPlaceholder address name := by
  rintro ⟨-, q, hq, -⟩
  rw [h] at hq
  contradiction

/-- A placeholder stays when its address, or another, is paused. -/
theorem HasPlaceholder.pauseAddress {b : Broker} {address name : String}
    (h : b.HasPlaceholder address name) (other : String) (persist : Bool) :
    (b.pauseAddress other persist).2.HasPlaceholder address name := by
  have hrecord : (b.record (.pauseAddress other persist)).HasPlaceholder address name := h
  unfold Broker.pauseAddress
  dsimp only
  split
  next => exact hrecord
  next a ha => exact hrecord.of_address rfl ha (Catalog.get?_insert _ other · _) rfl

/-- A placeholder stays when delivery goes on. -/
theorem HasPlaceholder.resumeAddress {b : Broker} {address name : String}
    (h : b.HasPlaceholder address name) (other : String) :
    (b.resumeAddress other).2.HasPlaceholder address name := by
  have hrecord : (b.record (.resumeAddress other)).HasPlaceholder address name := h
  unfold Broker.resumeAddress
  dsimp only
  split
  next => exact hrecord
  next a ha => exact hrecord.of_address rfl ha (Catalog.get?_insert _ other · _) rfl

end Broker

namespace Subscription

open Broker (Action HasPlaceholder)

/-! ### Single calls -/

/-- A call that drops the durable subscription behind a queue of that name. -/
def Call.Drops (call : Call) (queueName : String) : Prop :=
  ∃ client name, call.operation = .dropDurable client name ∧ client ≠ "" ∧ name ≠ "" ∧
    durableQueueName (some client) name = queueName

/-- A permitted action spares every queue but the one that it destroys. -/
theorem hasPlaceholder_perform {b before : Broker} {address name other : String}
    {operation : Operation} {action : Action} (haction : Permitted before other operation action)
    (hspared : ∀ removeConsumers, action ≠ .destroyQueue name removeConsumers)
    (h : b.HasPlaceholder address name) : (b.perform action).HasPlaceholder address name := by
  cases haction with
  | dropDurable => exact h.destroyQueue (fun heq => hspared true (heq ▸ rfl)) true
  | dropAll => exact h.destroyQueue (fun heq => hspared false (heq ▸ rfl)) false
  | removeMessages => exact h.restocks (b.removeMessages_restocks _ _)
  | pause => exact h.pauseAddress _ _
  | resume => exact h.resumeAddress _

/-- A permitted action creates no queue. -/
theorem get?_perform_eq_none {b before : Broker} {name other : String} {operation : Operation}
    {action : Action} (haction : Permitted before other operation action)
    (hnone : b.queues.get? name = none) : (b.perform action).queues.get? name = none := by
  cases haction with
  | dropDurable => exact Broker.get?_destroyQueue_eq_none hnone _ _
  | dropAll => exact Broker.get?_destroyQueue_eq_none hnone _ _
  | removeMessages => exact (b.removeMessages_restocks _ _).get?_eq_none hnone
  | pause =>
    simp only [Broker.perform, Broker.queues_pauseAddress]
    exact hnone
  | resume =>
    simp only [Broker.perform, Broker.queues_resumeAddress]
    exact hnone

/-- A permitted action on a well-formed broker destroys a placeholder only where it drops the durable
subscription of its name. -/
theorem Permitted.spares {b : Broker} (hb : b.WellFormed) {address name other : String}
    (h : b.HasPlaceholder address name) {operation : Operation} {action : Action}
    (haction : Permitted b other operation action)
    (hdrops : ∀ client subscription, operation = .dropDurable client subscription → client ≠ "" →
      subscription ≠ "" → durableQueueName (some client) subscription ≠ name)
    (removeConsumers : Bool) : action ≠ .destroyQueue name removeConsumers := by
  cases haction with
  | dropDurable hclient hname =>
    intro heq
    exact hdrops _ _ rfl hclient hname (Action.destroyQueue.inj heq).1
  | @dropAll a queue ha hqueue hplaceholder =>
    intro heq
    obtain rfl : queue = name := (Action.destroyQueue.inj heq).1
    obtain ⟨⟨r, hr, hrecorded⟩, q, hq, rfl⟩ := h
    obtain rfl := hb.address_of_mem ha hqueue hq
    obtain rfl : a = r := Option.some.inj (ha.symm.trans hr)
    exact hplaceholder hrecorded
  | removeMessages | pause | resume => simp

/-- A call that does not drop the subscription of its name leaves a placeholder as it is. -/
theorem hasPlaceholder_carryOut {b : Broker} (hb : b.WellFormed) {address name : String}
    (h : b.HasPlaceholder address name) {call : Call} (hcall : ¬ call.Drops name) :
    (call.carryOut b).HasPlaceholder address name := by
  obtain ⟨actions, heq, hactions⟩ := execute_performs call.address call.operation b
  rw [call.carryOut_eq, heq]
  refine Broker.performAll_induction (motive := fun current => current.HasPlaceholder address name)
    (fun action haction current hcurrent => ?_) h
  refine hasPlaceholder_perform (hactions action haction) ?_ hcurrent
  refine (hactions action haction).spares hb h fun client subscription hop hclient hname hqueue => ?_
  exact hcall ⟨client, subscription, hop, hclient, hname, hqueue⟩

/-- A queue that is not there does not come with a call. -/
theorem get?_carryOut_eq_none {b : Broker} {name : String} (hnone : b.queues.get? name = none)
    (call : Call) : (call.carryOut b).queues.get? name = none := by
  obtain ⟨actions, heq, hactions⟩ := execute_performs call.address call.operation b
  rw [call.carryOut_eq, heq]
  exact Broker.performAll_induction (motive := fun current => current.queues.get? name = none)
    (fun action haction current hcurrent => get?_perform_eq_none (hactions action haction) hcurrent)
    hnone

/-- After a call that drops the subscription behind a queue of that name there is no such queue. -/
theorem get?_carryOut_of_drops {b : Broker} {name : String} {call : Call} (hcall : call.Drops name) :
    (call.carryOut b).queues.get? name = none := by
  obtain ⟨client, subscription, hop, hclient, hsubscription, rfl⟩ := hcall
  rw [call.carryOut_eq, hop]
  change (dropDurable Broker.handle client subscription b).2.queues.get? _ = none
  unfold dropDurable durableQueue
  simp only [String.isEmpty_iff, hclient, hsubscription, if_false, Broker.handle]
  cases hq : b.queues.get? (durableQueueName (some client) subscription) with
  | none => simp [Broker.queueControl, hq]
  | some q =>
    simp only [Broker.queueControl, hq, Option.map_some]
    exact b.get?_destroyQueue _

/-! ### Sequences of calls -/

/-- A queue that is not there does not come with several calls. -/
theorem get?_administer_eq_none {b : Broker} {name : String} (hnone : b.queues.get? name = none)
    (calls : List Call) : (administer b calls).queues.get? name = none := by
  induction calls generalizing b with
  | nil => exact hnone
  | cons call calls ih => exact ih (get?_carryOut_eq_none hnone call)

/-- A placeholder is left as it is just when no call drops the subscription of its name. -/
theorem hasPlaceholder_administer_iff {b : Broker} (hb : b.Reachable) {address name : String}
    (h : b.HasPlaceholder address name) (calls : List Call) :
    (administer b calls).HasPlaceholder address name ↔ ∀ call ∈ calls, ¬ call.Drops name := by
  induction calls generalizing b with
  | nil => exact iff_of_true h (by simp)
  | cons call calls ih =>
    by_cases hcall : call.Drops name
    -- no call brings a queue back, so the first one that drops the placeholder decides
    · have hgone := get?_administer_eq_none (get?_carryOut_of_drops (b := b) hcall) calls
      refine iff_of_false (Broker.not_hasPlaceholder_of_get?_eq_none hgone) fun hall => ?_
      exact hall call List.mem_cons_self hcall
    · have hlater := ih (reachable_carryOut hb call) (hasPlaceholder_carryOut hb.wellFormed h hcall)
      rw [List.forall_mem_cons]
      exact hlater.trans (and_iff_right hcall).symm

/-- A topic whose placeholder is named like the address of a topic keeps it under all administration. -/
theorem administer_keeps_topic_placeholder {b : Broker} (hb : b.Reachable) {address topic : String}
    (h : b.HasPlaceholder address (topicAddress topic)) (calls : List Call) :
    (administer b calls).HasPlaceholder address (topicAddress topic) := by
  refine (hasPlaceholder_administer_iff hb h calls).mpr ?_
  rintro call - ⟨client, name, -, -, -, hqueue⟩
  exact durableQueueName_ne_topicAddress client name topic hqueue

/-- When administration keeps the placeholder of an address: a sequence of calls keeps it just when none of
them drops a durable subscription whose queue has the name of the placeholder, and so every sequence
does just when the placeholder has not the name of such a queue. -/
theorem administer_keeps_placeholder_iff {b : Broker} (hb : b.Reachable) {address placeholder : String}
    {a : Address} (ha : b.addresses.get? address = some a) (hname : a.placeholder = some placeholder) :
    (∀ calls, (administer b calls).HasPlaceholder address placeholder ↔
      ∀ call ∈ calls, ¬ call.Drops placeholder) ∧
    ((∀ calls, (administer b calls).HasPlaceholder address placeholder) ↔
      ∀ client name, client ≠ "" → name ≠ "" → durableQueueName (some client) name ≠ placeholder) := by
  have hplaceholder := hb.wellFormed.hasPlaceholder ha hname
  refine ⟨hasPlaceholder_administer_iff hb hplaceholder, ?_, ?_⟩
  · intro hall client name hclient hsubscription hqueue
    have hkept := hall [.onAddress address (.dropDurable client name)]
    rw [hasPlaceholder_administer_iff hb hplaceholder] at hkept
    exact hkept _ List.mem_cons_self ⟨client, name, rfl, hclient, hsubscription, hqueue⟩
  · intro hnone calls
    rw [hasPlaceholder_administer_iff hb hplaceholder]
    rintro call - ⟨client, name, -, hclient, hsubscription, hqueue⟩
    exact hnone client name hclient hsubscription hqueue

/-- A placeholder is kept when all subscriptions are dropped, and a durable one besides. -/
theorem administer_keeps_keepalive :
    (administer (Broker.run [.createTopicWithPlaceholder "t" "keepalive", .createQueue "t" "c.s" {}])
      [.onAddress "t" (.dropDurable "c" "s"), .onAddress "t" .dropAll]).HasPlaceholder
        "t" "keepalive" := by
  have haddress : (Broker.run [.createTopicWithPlaceholder "t" "keepalive",
      .createQueue "t" "c.s" {}]).addresses.get? "t" =
        some ⟨["keepalive", "c.s"], some "keepalive", none⟩ := by decide +kernel
  refine ((administer_keeps_placeholder_iff ⟨_, rfl⟩ haddress rfl).1 _).mpr ?_
  rintro call - ⟨client, name, -, -, -, hqueue⟩
  have hseparator : '.' ∈ "keepalive".toList := by
    rw [← hqueue, toList_durableQueueName]
    simp
  revert hseparator
  decide

/-- A placeholder is lost when a client and a subscription share its name. -/
theorem administer_loses_placeholder :
    (Broker.run [.createTopicWithPlaceholder "t" "c.s"]).HasPlaceholder "t" "c.s" ∧
      ¬ (administer (Broker.run [.createTopicWithPlaceholder "t" "c.s"])
        [.onAddress "t" (.dropDurable "c" "s")]).HasPlaceholder "t" "c.s" := by
  have hreachable : (Broker.run [.createTopicWithPlaceholder "t" "c.s"]).Reachable := ⟨_, rfl⟩
  have haddress : (Broker.run [.createTopicWithPlaceholder "t" "c.s"]).addresses.get? "t" =
      some ⟨["c.s"], some "c.s", none⟩ := by decide +kernel
  have hdrops : (Call.onAddress "t" (.dropDurable "c" "s")).Drops "c.s" :=
    ⟨"c", "s", rfl, by decide, by decide, by decide⟩
  refine ⟨hreachable.wellFormed.hasPlaceholder haddress rfl, ?_⟩
  exact Broker.not_hasPlaceholder_of_get?_eq_none (get?_carryOut_of_drops hdrops)

end Subscription

end BrokerAdmin
