import BrokerAdmin.Proofs.Broker.Movement
import BrokerAdmin.Proofs.Json.RoundTrip

/-!
# Consumers, as they are and as they are reported

A queue reports its consumers as a JSON text. The text tells them again, whatever characters their names
hold, as long as the time at which each was created is a number of 64 bits. A broker creates consumers
itself, so this is so of every consumer of a reachable broker; an action attaches at most one consumer to a
queue and changes none.
-/

namespace BrokerAdmin

/-- A signed number of 64 bits is taken from its value. -/
theorem Reading.int64?_exact {n : Int} (h : -2 ^ 63 ≤ n ∧ n < 2 ^ 63) :
    exact.int64? (.int n) = some n := by
  rw [int64?, intIn?, Option.filter_eq_some_iff]
  exact ⟨rfl, by simp; omega⟩

/-- A record is taken from any table by its type. -/
@[simp] theorem Reading.record?_exact_table (names : List String) (least : Nat)
    (fields : List (String × Value)) : exact.record? names least (.table fields) = some fields := rfl

/-- Items are told from their values when each of them is. -/
theorem Value.listOf_map {α : Type} {read : Value → Option α} {write : α → Value} {items : List α}
    (h : ∀ a ∈ items, read (write a) = some a) : listOf read (.list (items.map write)) = some items := by
  change (items.map write).mapM read = some items
  induction items with
  | nil => rfl
  | cons a items ih =>
    obtain ⟨ha, hitems⟩ := List.forall_mem_cons.mp h
    rw [List.map_cons, List.mapM_cons, ha, ih hitems]
    rfl

namespace Consumer

/-- The creation time of a consumer is a signed number of 64 bits. -/
def IsTimed (c : Consumer) : Prop :=
  -2 ^ 63 ≤ c.creationTime ∧ c.creationTime < 2 ^ 63

/-- A consumer is told from its record. -/
theorem ofValue?_toValue {c : Consumer} (h : c.IsTimed) : ofValue? c.toValue = some c := by
  have htext : ∀ s, Reading.exact.text? (.text s) = some s := fun _ => rfl
  have hbool : Reading.exact.bool? (.bool c.browseOnly) = some c.browseOnly := rfl
  have htime := Reading.int64?_exact h
  simp [ofValue?, toValue, Value.defaulted, Value.field?, htext, hbool, htime]

/-- The record of a consumer is kept by JSON text. -/
theorem kept_toValue {c : Consumer} (h : c.IsTimed) :
    Json.Kept (fun name => !fieldNames.contains name) c.toValue := by
  have htime : Json.FitsBits c.creationTime := by
    obtain ⟨hleast, hgreatest⟩ := h
    exact ⟨hleast, by omega⟩
  refine .table (fun field hfield => ?_) fun field hfield => ?_
  · simp only [List.mem_cons, List.not_mem_nil, or_false] at hfield
    rcases hfield with rfl | rfl | rfl | rfl | rfl <;> rfl
  · simp only [List.mem_cons, List.not_mem_nil, or_false] at hfield
    rcases hfield with rfl | rfl | rfl | rfl | rfl
    · exact .text c.id
    · exact .text c.connection
    · exact .text c.session
    · exact .bool c.browseOnly
    · exact .int htime

/-- Consumers are told from the text that lists them. -/
theorem ofListText?_listText {consumers : List Consumer} (h : ∀ c ∈ consumers, c.IsTimed) :
    ofListText? (listText consumers) = some consumers := by
  have hkept : Json.Kept (fun name => !fieldNames.contains name) (.list (consumers.map toValue)) :=
    .map fun c hc => kept_toValue (h c hc)
  rw [ofListText?, listText, Json.parseIgnoring?_render hkept]
  exact Value.listOf_map fun c hc => ofValue?_toValue (h c hc)

end Consumer

namespace Broker

/-- What becomes of the consumers of a queue: they stay, and at most one more comes, with a creation time of
64 bits. -/
def Joined (consumers consumers' : List Consumer) : Prop :=
  consumers' = consumers ∨ ∃ c, c.IsTimed ∧ consumers' = consumers ++ [c]

/-- Several queues, of which at most one is written anew, with its consumers joined. -/
inductive Rewritten (before : Catalog Queue) : Catalog Queue → Prop
  | same : Rewritten before before
  | insert {name : String} {q q' : Queue} : before.get? name = some q →
      Joined q.consumers q'.consumers → Rewritten before (before.insert name q')

/-- Every queue has its consumers joined when one of them is written anew. -/
theorem Rewritten.exists_joined {before after : Catalog Queue} (h : Rewritten before after)
    {name : String} {q' : Queue} (hq' : after.get? name = some q') :
    ∃ q, before.get? name = some q ∧ Joined q.consumers q'.consumers := by
  cases h with
  | same => exact ⟨q', hq', Or.inl rfl⟩
  | @insert other r r' hr hjoined =>
    rw [Catalog.get?_insert] at hq'
    split at hq'
    next hname =>
      obtain rfl := Option.some.inj hq'
      exact ⟨r, hname ▸ hr, hjoined⟩
    next => exact ⟨q', hq', Or.inl rfl⟩

/-- An action about what a queue holds, other than sending, writes one queue anew, if any. -/
theorem rewritten_perform (b : Broker) {action : Action} (hcontents : action.isAboutContents = true)
    (hsend : ∀ address m, action ≠ .send address m) : Rewritten b.queues (b.perform action).queues := by
  cases action with
  | send address m => exact absurd rfl (hsend address m)
  | receive other =>
    change Rewritten _ (b.receive other).2.queues
    rcases b.receive_cases other with ⟨result, heq, -⟩ | ⟨r, m, rest, hr, -, heq⟩
    · exact heq ▸ .same
    · exact heq ▸ .insert hr (Or.inl rfl)
  | acknowledge other id =>
    change Rewritten _ (b.acknowledge other id).2.queues
    rcases b.acknowledge_cases other id with ⟨e, heq⟩ | ⟨r, hr, -, heq⟩
    · exact heq ▸ .same
    · exact heq ▸ .insert hr (Or.inl rfl)
  | removeMessages other filter =>
    change Rewritten _ (b.removeMessages other filter).2.queues
    rcases b.removeMessages_cases other filter with ⟨e, heq⟩ | ⟨r, expr, hr, -, heq⟩
    · exact heq ▸ .same
    · exact heq ▸ .insert hr (Or.inl rfl)
  | addConsumer other connection session =>
    change Rewritten _ (b.addConsumer other connection session).2.queues
    unfold addConsumer
    dsimp only
    split
    next => exact .same
    next r hr =>
      refine .insert ((queue_eq_ok_iff _ other r).mp hr) (Or.inr ⟨_, ?_, rfl⟩)
      simp [Consumer.IsTimed]
  | _ => contradiction

/-- Sending leaves the consumers of every queue as they are. -/
theorem WellFormed.exists_joined_of_send {b : Broker} (hb : b.WellFormed) {address : String}
    {m : Message} {name : String} {q' : Queue} (hq' : (b.send address m).2.queues.get? name = some q') :
    ∃ q, b.queues.get? name = some q ∧ Joined q.consumers q'.consumers := by
  cases ha : b.addresses.get? address with
  | none =>
    rw [send_eq_of_none ha] at hq'
    exact ⟨q', hq', Or.inl rfl⟩
  | some a =>
    rw [hb.send_eq ha, delivered, Catalog.get?_mapEntries] at hq'
    obtain ⟨q, hq, rfl⟩ := Option.map_eq_some_iff.mp hq'
    refine ⟨q, hq, Or.inl ?_⟩
    split <;> rfl

/-- A queue after an action has no consumers, or it was there before and its consumers have been joined by at
most one. -/
theorem WellFormed.exists_joined_of_perform {b : Broker} (hb : b.WellFormed) {action : Action}
    {name : String} {q' : Queue} (hq' : (b.perform action).queues.get? name = some q') :
    q'.consumers = [] ∨ ∃ q, b.queues.get? name = some q ∧ Joined q.consumers q'.consumers := by
  by_cases hcontents : action.isAboutContents = true
  · right
    by_cases hsend : ∃ address m, action = .send address m
    · obtain ⟨address, m, rfl⟩ := hsend
      exact hb.exists_joined_of_send hq'
    · push Not at hsend
      exact (b.rewritten_perform hcontents hsend).exists_joined hq'
  · rw [Bool.not_eq_true] at hcontents
    cases hq : b.queues.get? name with
    | none =>
      obtain ⟨address, options, rfl⟩ := (b.redrawn_perform hcontents).eq_create hq hq'
      exact Or.inl rfl
    | some q =>
      rcases (b.redrawn_perform hcontents).get? hq with hgone | hsame
      · rw [hgone] at hq'
        contradiction
      · exact Or.inr ⟨q, rfl, Or.inl (by rw [Option.some.inj (hq'.symm.trans hsame)])⟩

/-- Every consumer of a reachable broker was created at a time of 64 bits. -/
theorem Reachable.isTimed_of_mem {b : Broker} (hb : b.Reachable) {name : String} {q : Queue}
    (hq : b.queues.get? name = some q) : ∀ c ∈ q.consumers, c.IsTimed := by
  have hall : b.WellFormed ∧ ∀ name q, b.queues.get? name = some q → ∀ c ∈ q.consumers, c.IsTimed := by
    apply hb.induction
    · exact ⟨wellFormed_start, fun name q hq => by simp [start] at hq⟩
    rintro action b ⟨hwellFormed, htimed⟩
    refine ⟨hwellFormed.perform action, fun name q' hq' => ?_⟩
    rcases hwellFormed.exists_joined_of_perform hq' with hnone | ⟨q, hq, hsame | ⟨new, hnew, hmore⟩⟩
    · simp [hnone]
    · rw [hsame]
      exact htimed name q hq
    · rw [hmore, List.forall_mem_append]
      exact ⟨htimed name q hq, by simpa using hnew⟩
  exact hall.2 name q hq

end Broker

end BrokerAdmin
