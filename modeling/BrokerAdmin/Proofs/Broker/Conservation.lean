import BrokerAdmin.Proofs.Broker.Movement
import Mathlib.Algebra.BigOperators.Group.List.Basic
import Mathlib.Algebra.Order.Group.Multiset
import Mathlib.Tactic.Abel

/-!
# No message is lost or duplicated

The traffic of a queue is what was routed into it, acknowledged and removed since it was created. A queue
that is destroyed takes its messages with it, so the traffic starts anew with the next queue of that name.
At every point of a run, what was routed into a queue is what it still holds, waiting or in delivery,
together with what was acknowledged and what was removed, each message as often as it was routed.

Sending adds one copy of a message for each queue that the answer counts, and none anywhere else.
-/

namespace BrokerAdmin

/-- What has gone into a queue and left it since it was created. -/
structure Traffic where
  routed : List Message
  acknowledged : List Message
  removed : List Message

/-- The traffic of a queue that has just been created. -/
def Traffic.none : Traffic := ⟨[], [], []⟩

namespace Queue

variable {q q' : Queue} {routed acknowledged removed : List Message}

/-- Messages that move through a queue are neither lost nor duplicated. -/
theorem Moves.balance (h : q.Moves routed acknowledged removed q') :
    (routed + (q.messages + q.delivering) : Multiset Message) =
      q'.messages + q'.delivering + acknowledged + removed := by
  have hsplit : ∀ (p : Message → Bool) (messages : List Message),
      (messages : Multiset Message) = messages.filter p + messages.filter fun m => !p m :=
    fun p messages => (Multiset.coe_eq_coe.mpr (List.filter_append_perm p messages)).symm
  cases h with
  | attach consumers => simp
  | enter m =>
    rw [append, ← Multiset.coe_add]
    simp only [Multiset.coe_nil]
    abel
  | @deliver m rest hmessages =>
    have hfront : (q.messages : Multiset Message) = [m] + rest := by
      rw [hmessages]
      rfl
    rw [hfront, ← Multiset.coe_add]
    simp only [Multiset.coe_nil]
    abel
  | acknowledge id =>
    rw [hsplit (fun m => m.id == id) q.delivering]
    simp only [Multiset.coe_nil]
    change _ = (q.messages + (q.delivering.filter fun m => !(m.id == id)) + _ + 0 : Multiset Message)
    abel
  | remove selected =>
    rw [hsplit selected q.messages]
    simp only [Multiset.coe_nil]
    abel

/-- A queue holds one message more when one is put at its tail. -/
theorem length_held_append (q : Queue) (m : Message) : (q.append m).held.length = q.held.length + 1 := by
  simp only [held, append, List.length_append, List.length_singleton]
  omega

/-- What was routed into a queue is what the queue holds and what has left it. -/
def Balanced (q : Queue) (t : Traffic) : Prop :=
  (t.routed : Multiset Message) = q.messages + q.delivering + t.acknowledged + t.removed

/-- A new queue is balanced. -/
theorem balanced_create (address : String) (options : QueueOptions) :
    (create address options).Balanced Traffic.none := rfl

/-- A queue stays balanced when its messages move and that is noted. -/
theorem Balanced.moves {t : Traffic} (h : q.Balanced t) (hmoves : q.Moves routed acknowledged removed q') :
    q'.Balanced ⟨t.routed ++ routed, t.acknowledged ++ acknowledged, t.removed ++ removed⟩ := by
  unfold Balanced at h ⊢
  calc ((t.routed ++ routed : List Message) : Multiset Message)
      = t.routed + routed := (Multiset.coe_add _ _).symm
    _ = routed + (q.messages + q.delivering) + t.acknowledged + t.removed := by
      rw [h]
      abel
    _ = q'.messages + q'.delivering + acknowledged + removed + t.acknowledged + t.removed := by
      rw [hmoves.balance]
    _ = q'.messages + q'.delivering + (t.acknowledged ++ acknowledged : List Message) +
        (t.removed ++ removed : List Message) := by
      rw [← Multiset.coe_add, ← Multiset.coe_add]
      abel

end Queue

/-- A sum over the entries of several names can be taken over the names. -/
theorem Catalog.sum_entries_mem {α : Type} (c : Catalog α) (f : α → Nat) {names : List String}
    (hnodup : names.Nodup) (hsubset : names ⊆ c.names) :
    (c.entries.map fun entry => if entry.1 ∈ names then f entry.2 else 0).sum =
      (names.map fun name => ((c.get? name).map f).getD 0).sum := by
  have hperm : (c.names.filter (· ∈ names)).Perm names := by
    refine (List.perm_ext_iff_of_nodup (c.nodup_names.filter _) hnodup).mpr fun name => ?_
    simpa using fun h => hsubset h
  have hvalue : ∀ entry ∈ c.entries, ((c.get? entry.1).map f).getD 0 = f entry.2 := by
    intro entry hentry
    rw [(c.get?_eq_some_iff entry.1 entry.2).mpr hentry]
    rfl
  rw [← (hperm.map _).sum_eq, Catalog.names, List.filter_map, List.map_map, List.sum_map_ite]
  simp only [List.map_const', List.sum_replicate_nat, Nat.mul_zero, Nat.add_zero]
  refine congrArg List.sum (List.map_congr_left fun entry hentry => ?_)
  exact (hvalue entry (List.mem_of_mem_filter hentry)).symm

namespace Broker

/-! ### The traffic of a run -/

/-- The traffic of the queue of a name after one more action. As long as there is no such queue there is no
traffic, so it starts anew with each queue that is created under the name. -/
def trafficAfter (name : String) (b : Broker) (t : Traffic) (action : Action) : Traffic :=
  if b.queues.contains name then
    ⟨t.routed ++ routedBy name b action, t.acknowledged ++ acknowledgedBy name b action,
      t.removed ++ removedBy name b action⟩
  else Traffic.none

/-- The traffic of the queue of a name after several more actions. -/
def trafficFrom (name : String) (b : Broker) (t : Traffic) : List Action → Traffic
  | [] => t
  | action :: actions => trafficFrom name (b.perform action) (trafficAfter name b t action) actions

/-- The traffic that the queue of a name has had in a run since it was last created. -/
def traffic (name : String) (actions : List Action) : Traffic :=
  trafficFrom name start Traffic.none actions

/-- The traffic accounts for the queue of a name, if there is one. -/
def Accounted (b : Broker) (name : String) (t : Traffic) : Prop :=
  ∀ q, b.queues.get? name = some q → q.Balanced t

/-- An action on a well-formed broker leaves a queue accounted for, also when it creates the queue. -/
theorem Accounted.perform {b : Broker} {name : String} {t : Traffic} (h : b.Accounted name t)
    (hb : b.WellFormed) (action : Action) :
    (b.perform action).Accounted name (trafficAfter name b t action) := by
  intro q' hq'
  unfold trafficAfter Catalog.contains
  rcases hb.created_or_moved hq' with ⟨hnone, address, options, rfl⟩ | ⟨q, hq, hmoves⟩
  · rw [hnone]
    exact Queue.balanced_create address options
  · rw [hq]
    exact (h q hq).moves hmoves

/-- Several actions on a well-formed broker leave a queue accounted for. -/
theorem Accounted.performAll {b : Broker} {name : String} {t : Traffic} (h : b.Accounted name t)
    (hb : b.WellFormed) (actions : List Action) :
    (b.performAll actions).Accounted name (trafficFrom name b t actions) := by
  induction actions generalizing b t with
  | nil => exact h
  | cons action actions ih => exact ih (h.perform hb action) (hb.perform action)

/-! ### The number of messages in all queues -/

/-- The sum of the message counts of all queues. -/
def messageTotal (b : Broker) : Except Error Nat :=
  (b.queues.names.mapM b.messageCount).map List.sum

/-- Each queue of a broker can be counted, so the sum exists. -/
theorem messageTotal_eq (b : Broker) :
    b.messageTotal = .ok (b.queues.entries.map fun entry => entry.2.held.length).sum := by
  have hcounts : b.queues.names.mapM b.messageCount =
      .ok (b.queues.entries.map fun entry => entry.2.held.length) := by
    rw [mapM_eq_ok_iff, Catalog.names, List.forall₂_map_left_iff, List.forall₂_map_right_iff,
      List.forall₂_same]
    rintro ⟨name, q⟩ hentry
    have hq : b.queues.get? name = some q := (Catalog.get?_eq_some_iff _ _ _).mpr hentry
    simp [messageCount, queue, hq, Queue.held, Except.map]
  rw [messageTotal, hcounts]
  rfl

/-- A message that gets to its recipients is one message more in each of them. -/
theorem WellFormed.sum_delivered {b : Broker} (hb : b.WellFormed) (address : String) (m : Message) :
    ((b.delivered address m).queues.entries.map fun entry => entry.2.held.length).sum =
      (b.queues.entries.map fun entry => entry.2.held.length).sum + (b.recipients address m).length := by
  obtain ⟨hnodup, hsubset⟩ := hb.recipients_valid address m
  have hqueue : ∀ entry : String × Queue,
      (if entry.1 ∈ b.recipients address m then entry.2.append (b.stamped m) else entry.2).held.length =
        entry.2.held.length + if entry.1 ∈ b.recipients address m then 1 else 0 := by
    intro entry
    split
    next => exact entry.2.length_held_append (b.stamped m)
    next => rfl
  have hone : ∀ name ∈ b.recipients address m, ((b.queues.get? name).map fun _ => 1).getD 0 = 1 := by
    intro name hname
    obtain ⟨q, hq⟩ := (Catalog.mem_names_iff _ name).mp (hsubset hname)
    rw [hq]
    rfl
  have hreached : (b.queues.entries.map fun entry =>
      if entry.1 ∈ b.recipients address m then 1 else 0).sum = (b.recipients address m).length := by
    rw [b.queues.sum_entries_mem (fun _ => 1) hnodup hsubset, List.map_congr_left hone]
    simp
  have hentries : (b.delivered address m).queues.entries.map (fun entry => entry.2.held.length) =
      b.queues.entries.map fun entry =>
        entry.2.held.length + if entry.1 ∈ b.recipients address m then 1 else 0 := by
    unfold delivered Catalog.mapEntries
    rw [List.map_map]
    exact List.map_congr_left fun entry _ => hqueue entry
  rw [hentries, List.sum_map_add, hreached]

/-- A successful sending in a well-formed broker answers by how much the number of messages grows. -/
theorem WellFormed.messageTotal_send {b : Broker} (hb : b.WellFormed) {address : String} {m : Message}
    {n : Nat} (hsent : (b.send address m).1 = .ok n) :
    ∃ total, b.messageTotal = .ok total ∧ (b.send address m).2.messageTotal = .ok (total + n) := by
  refine ⟨_, b.messageTotal_eq, ?_⟩
  cases ha : b.addresses.get? address with
  | none =>
    rw [send_eq_of_none ha] at hsent
    contradiction
  | some a =>
    rw [hb.send_eq ha] at hsent ⊢
    obtain rfl : (b.recipients address m).length = n := Except.ok.inj hsent
    rw [messageTotal_eq, hb.sum_delivered]

/-! ### All runs -/

/-- At the end of every run, what was routed into each queue since the queue was last created is what waits
in it, what is in delivery, what was acknowledged and what was removed, taken together. Sending then
answers the number of messages by which the queues grow in all. -/
theorem run_conserves_messages (actions : List Action) :
    (∀ name q, (run actions).queues.get? name = some q →
      ((traffic name actions).routed : Multiset Message) = q.messages + q.delivering +
        (traffic name actions).acknowledged + (traffic name actions).removed) ∧
      ∀ address m n, ((run actions).send address m).1 = .ok n →
        ∃ total, (run actions).messageTotal = .ok total ∧
          ((run actions).send address m).2.messageTotal = .ok (total + n) := by
  have hb : (run actions).WellFormed := Reachable.wellFormed ⟨actions, rfl⟩
  refine ⟨fun name => ?_, fun address m n => hb.messageTotal_send⟩
  have hstart : start.Accounted name Traffic.none := nofun
  exact hstart.performAll wellFormed_start actions

/-- A queue that is created again has only the later messages to account for, and sending to it adds one. -/
theorem run_conserves_messages_after_recreation :
    ((run [.createQueue "t" "c.s" {}, .send "t" (.ofBody "a" 0), .destroyQueue "c.s" true,
        .createQueue "t" "c.s" {}, .send "t" (.ofBody "b" 0), .receive "c.s"]).queues.get? "c.s" =
        some ⟨"t", {}, [], [{ Message.ofBody "b" 0 with id := 2 }], []⟩ ∧
      ((traffic "c.s" [.createQueue "t" "c.s" {}, .send "t" (.ofBody "a" 0), .destroyQueue "c.s" true,
        .createQueue "t" "c.s" {}, .send "t" (.ofBody "b" 0), .receive "c.s"]).routed :
          Multiset Message) = [{ Message.ofBody "b" 0 with id := 2 }]) ∧
    ((run [.createQueue "t" "c.s" {}]).send "t" (.ofBody "a" 0)).1 = .ok 1 ∧
      ∃ total, (run [.createQueue "t" "c.s" {}]).messageTotal = .ok total ∧
        ((run [.createQueue "t" "c.s" {}]).send "t" (.ofBody "a" 0)).2.messageTotal =
          .ok (total + 1) := by
  have hqueue : (run [.createQueue "t" "c.s" {}, .send "t" (.ofBody "a" 0), .destroyQueue "c.s" true,
      .createQueue "t" "c.s" {}, .send "t" (.ofBody "b" 0), .receive "c.s"]).queues.get? "c.s" =
      some ⟨"t", {}, [], [{ Message.ofBody "b" 0 with id := 2 }], []⟩ := by rfl
  have hsent : ((run [.createQueue "t" "c.s" {}]).send "t" (.ofBody "a" 0)).1 = .ok 1 := by decide +kernel
  refine ⟨⟨hqueue, ?_⟩, hsent, (run_conserves_messages _).2 "t" _ 1 hsent⟩
  rw [(run_conserves_messages _).1 "c.s" _ hqueue]
  rfl

end Broker

end BrokerAdmin
