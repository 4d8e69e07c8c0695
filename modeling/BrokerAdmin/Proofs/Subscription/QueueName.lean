import BrokerAdmin.Proofs.Subscription.Name

/-!
# Subscriptions with the same queue

The name of a queue is made of parts, each of them escaped, with separators in between. Escaping keeps
the separators apart from the dots inside the parts, so the name tells its parts.

The parts do not tell the subscription. What is not durable is marked by a part of its own, in front of
the others, and nothing keeps a client from being named like the mark. A durable subscription of such a
client shares its queue with the one of the same name that is not durable and has no client. No other
two subscriptions share a queue.
-/

namespace BrokerAdmin.Subscription

/-! ### Parts -/

/-- Parts as they stand in the name of a queue. -/
def joined (parts : List (List Char)) : List Char :=
  ['.'].intercalate (parts.map escapeChars)

/-- A single part stands without a separator. -/
theorem joined_singleton (part : List Char) : joined [part] = escapeChars part := by
  rw [joined, List.map_singleton, List.intercalate_singleton]

/-- A part in front of others is followed by a separator. -/
theorem joined_cons_cons (part next : List Char) (rest : List (List Char)) :
    joined (part :: next :: rest) = escapeChars part ++ '.' :: joined (next :: rest) := by
  rw [joined, List.map_cons, List.map_cons, List.intercalate_cons_cons, List.append_assoc]
  rfl

/-- Reading joined parts takes the first of them, and finds a separator if there are others. -/
theorem component_joined (part : List Char) (rest : List (List Char)) :
    component (joined (part :: rest)) = .ok (part, if rest = [] then none else some (joined rest)) := by
  cases rest with
  | nil => rw [joined_singleton, component_escapeChars, if_pos rfl]
  | cons next rest =>
    rw [joined_cons_cons, component_escapeChars_separator, if_neg (List.cons_ne_nil next rest)]

/-- Joined parts tell the parts, if there are any. -/
theorem joined_inj {parts parts' : List (List Char)} (hparts : parts ≠ []) (hparts' : parts' ≠ [])
    (h : joined parts = joined parts') : parts = parts' := by
  induction parts generalizing parts' with
  | nil => contradiction
  | cons part rest ih =>
    obtain ⟨part', rest', rfl⟩ := List.exists_cons_of_ne_nil hparts'
    have hread := component_joined part rest
    rw [h, component_joined] at hread
    obtain ⟨rfl, hrest⟩ := Prod.mk.inj (Except.ok.inj hread)
    congr 1
    by_cases hnil : rest = [] <;> by_cases hnil' : rest' = []
    · rw [hnil, hnil']
    · simp [hnil, hnil'] at hrest
    · simp [hnil, hnil'] at hrest
    · rw [if_neg hnil, if_neg hnil', Option.some.injEq] at hrest
      exact ih hnil hnil' hrest.symm

/-! ### Subscriptions -/

/-- What the queue of a subscription is named after. -/
structure Key where
  durable : Bool
  client : Option String
  name : String
  deriving DecidableEq

namespace Key

/-- The queue of a subscription. -/
def queueName (k : Key) : String :=
  if k.durable then durableQueueName k.client k.name else nonDurableQueueName k.client k.name

/-- The part that marks what is not durable. -/
def mark : String := "nonDurable"

/-- The parts of the name of a queue. -/
def parts (k : Key) : List String :=
  (if k.durable then [] else [mark]) ++ k.client.toList ++ [k.name]

/-- The name of a queue consists of its parts. -/
theorem toList_queueName (k : Key) : k.queueName.toList = joined (k.parts.map String.toList) := by
  have hmark : nonDurableMark.toList = escapeChars mark.toList ++ ['.'] := by decide
  obtain ⟨durable, client, name⟩ := k
  have hname : (durableQueueName client name).toList =
      joined ((client.toList ++ [name]).map String.toList) := by
    cases client with
    | none => simp [durableQueueName, escape, joined_singleton]
    | some client => simp [toList_durableQueueName, joined_cons_cons, joined_singleton]
  cases durable with
  | true => simpa [queueName, parts] using hname
  | false =>
    have hmore : ∃ next rest, client.toList ++ [name] = next :: rest := by
      cases client <;> simp
    obtain ⟨next, rest, hrest⟩ := hmore
    rw [hrest] at hname
    simp [queueName, parts, nonDurableQueueName, hmark, hname, hrest, joined_cons_cons]

/-- A durable subscription of a client that is named like the mark, and the subscription of the same name
that is not durable and has no client. -/
inductive Clash : Key → Key → Prop
  | intro (name : String) : Clash ⟨true, some mark, name⟩ ⟨false, none, name⟩

/-- Among subscriptions that are durable, and among those that are not, the parts tell the subscription. -/
theorem eq_of_parts_eq {k k' : Key} (hdurable : k.durable = k'.durable) (h : k.parts = k'.parts) :
    k = k' := by
  obtain ⟨durable, client, name⟩ := k
  obtain ⟨durable', client', name'⟩ := k'
  obtain rfl : durable = durable' := hdurable
  rw [parts, parts, List.append_assoc, List.append_assoc, List.append_cancel_left_eq] at h
  cases client <;> cases client' <;> simp at h
  next => rw [h]
  next => rw [h.1, h.2]

/-- A durable subscription has the parts of one that is not durable only if the two clash. -/
theorem clash_of_parts_eq {k k' : Key} (hdurable : k.durable = true) (hdurable' : k'.durable = false)
    (h : k.parts = k'.parts) : Clash k k' := by
  obtain ⟨durable, client, name⟩ := k
  obtain ⟨durable', client', name'⟩ := k'
  obtain rfl : durable = true := hdurable
  obtain rfl : durable' = false := hdurable'
  -- a durable subscription has two parts at most, so there is no second client
  cases client <;> cases client' <;> simp [parts] at h
  obtain ⟨rfl, rfl⟩ := h
  exact .intro name

/-- The parts tell the subscription, unless it clashes with another one. -/
theorem parts_eq_iff (k k' : Key) : k.parts = k'.parts ↔ k = k' ∨ Clash k k' ∨ Clash k' k := by
  constructor
  · intro h
    cases hdurable : k.durable <;> cases hdurable' : k'.durable
    · exact Or.inl (eq_of_parts_eq (hdurable.trans hdurable'.symm) h)
    · exact Or.inr (Or.inr (clash_of_parts_eq hdurable' hdurable h.symm))
    · exact Or.inr (Or.inl (clash_of_parts_eq hdurable hdurable' h))
    · exact Or.inl (eq_of_parts_eq (hdurable.trans hdurable'.symm) h)
  · rintro (rfl | hclash | hclash)
    · rfl
    · cases hclash
      rfl
    · cases hclash
      rfl

/-- Two subscriptions have the same queue just when they are the same, or one is durable, of a client that
is named like the mark of what is not durable, and the other is not durable, of no client and of the same
name. -/
theorem queueName_eq_iff (k k' : Key) :
    k.queueName = k'.queueName ↔ k = k' ∨ Clash k k' ∨ Clash k' k := by
  have hparts : ∀ k : Key, k.parts.map String.toList ≠ [] := by
    intro k
    simp [parts]
  rw [← parts_eq_iff]
  constructor
  · intro h
    have hjoined := congrArg String.toList h
    rw [toList_queueName, toList_queueName] at hjoined
    have hchars := joined_inj (hparts k) (hparts k') hjoined
    exact (List.map_inj_right fun _ _ => String.toList_inj.mp).mp hchars
  · intro h
    rw [← String.toList_inj, toList_queueName, toList_queueName, h]

/-- A durable subscription shares its queue with one that is not durable and belongs to another client. -/
theorem queueName_clash :
    (⟨true, some "nonDurable", "s"⟩ : Key).queueName = (⟨false, none, "s"⟩ : Key).queueName ∧
      (⟨true, some "nonDurable", "s"⟩ : Key) ≠ ⟨false, none, "s"⟩ := by
  decide

end Key

end BrokerAdmin.Subscription
