import BrokerAdmin.Subscription.Name

/-!
# Names of queues, part by part

Reading a part off the front of a queue's name undoes escaping: an escaped part is read as it was before,
and reading goes on with what stands behind it. So the name of a durable subscription is one part, a
separator and another part, and no more; the address of a topic, which has two separators in its mark
alone, is no such name.
-/

namespace BrokerAdmin.Subscription

/-- What stands for a part in the name of a queue: each character as it is, unless it is a backslash or a
separator, or behind a backslash, whatever it is. -/
inductive Spells : List Char → List Char → Prop
  | nil : Spells [] []
  | plain {c : Char} {chars part : List Char} : c ≠ '\\' → c ≠ '.' → Spells chars part →
      Spells (c :: chars) (c :: part)
  | escaped (c : Char) {chars part : List Char} : Spells chars part →
      Spells ('\\' :: c :: chars) (c :: part)

/-- What stands for a part is read as the part, together with what stands in front of the next separator. -/
theorem Spells.component_append {chars part : List Char} (h : Spells chars part) (rest : List Char) :
    component (chars ++ rest) = (component rest).map fun (name, more) => (part ++ name, more) := by
  induction h with
  | nil => cases hrest : component rest <;> simp [hrest, Except.map]
  | @plain c chars part hescape hseparator _ ih =>
    have hfirst : component (c :: (chars ++ rest)) =
        (component (chars ++ rest)).map fun (name, more) => (c :: name, more) := by
      rw [component]
      · exact fun hc _ => hescape hc
      · exact fun _ _ hc _ => hescape hc
      · exact hseparator
    rw [List.cons_append, hfirst, ih]
    cases component rest <;> rfl
  | escaped c _ ih =>
    rw [List.cons_append, List.cons_append, component, ih]
    cases component rest <;> rfl

/-- Characters are escaped one by one. -/
theorem escapeChars_cons (c : Char) (part : List Char) :
    escapeChars (c :: part) = escapeChar c ++ escapeChars part :=
  List.flatMap_cons

/-- Escaping a part gives something that stands for it. -/
theorem spells_escapeChars (part : List Char) : Spells (escapeChars part) part := by
  induction part with
  | nil => exact .nil
  | cons c part ih =>
    rw [escapeChars_cons, escapeChar]
    split
    next => exact .escaped c ih
    next hplain =>
      rw [not_or] at hplain
      exact .plain hplain.1 hplain.2 ih

/-- What stands for a part is read up to the separator behind it. -/
theorem Spells.component_separator {chars part : List Char} (h : Spells chars part) (rest : List Char) :
    component (chars ++ '.' :: rest) = .ok (part, some rest) := by
  rw [h.component_append, component]
  simp [Except.map]

/-- What stands for a part is read to the end. -/
theorem Spells.component_eq {chars part : List Char} (h : Spells chars part) :
    component chars = .ok (part, none) := by
  have hend := h.component_append []
  rw [List.append_nil, component] at hend
  simpa [Except.map] using hend

/-- A backslash behind what stands for a part has nothing to escape. -/
theorem Spells.component_backslash {chars part : List Char} (h : Spells chars part) :
    component (chars ++ ['\\']) = .error .trailingEscape := by
  rw [h.component_append, component]
  rfl

/-- An escaped part is read up to the separator behind it. -/
theorem component_escapeChars_separator (part rest : List Char) :
    component (escapeChars part ++ '.' :: rest) = .ok (part, some rest) :=
  (spells_escapeChars part).component_separator rest

/-- An escaped part is read to the end. -/
theorem component_escapeChars (part : List Char) : component (escapeChars part) = .ok (part, none) :=
  (spells_escapeChars part).component_eq

/-- The characters of the name of a durable subscription's queue. -/
theorem toList_durableQueueName (client name : String) :
    (durableQueueName (some client) name).toList =
      escapeChars client.toList ++ '.' :: escapeChars name.toList := by
  simp [durableQueueName, escape]

/-- The name of a durable subscription's queue tells the client and the subscription. -/
theorem decompose_durableQueueName {client : String} (hclient : client ≠ "") (name : String) :
    decompose (durableQueueName (some client) name) = .ok (some client, name) := by
  have hchars : decomposeChars (durableQueueName (some client) name).toList =
      .ok (some client.toList, name.toList) := by
    have hempty : client.toList.isEmpty = false := by
      rw [List.isEmpty_eq_false_iff, ne_eq, String.toList_eq_nil_iff]
      exact hclient
    rw [toList_durableQueueName, decomposeChars, component_escapeChars_separator]
    change (component (escapeChars name.toList) >>= _) = _
    rw [component_escapeChars]
    change Except.ok (if client.toList.isEmpty then none else some client.toList, name.toList) = _
    rw [hempty]
    rfl
  rw [decompose, hchars]
  simp

/-- Two durable subscriptions with the same queue are the same. -/
theorem durableQueueName_inj {client client' name name' : String}
    (h : durableQueueName (some client) name = durableQueueName (some client') name') :
    client = client' ∧ name = name' := by
  have hchars := congrArg String.toList h
  rw [toList_durableQueueName, toList_durableQueueName] at hchars
  have hclient := component_escapeChars_separator client.toList (escapeChars name.toList)
  rw [hchars, component_escapeChars_separator] at hclient
  have hparts : client'.toList = client.toList ∧ escapeChars name'.toList = escapeChars name.toList := by
    simpa using hclient
  have hname := component_escapeChars name.toList
  rw [← hparts.2, component_escapeChars] at hname
  have hname : name'.toList = name.toList := by simpa using hname
  exact ⟨String.toList_inj.mp hparts.1.symm, String.toList_inj.mp hname.symm⟩

/-- The address of a topic begins with the mark of topics. -/
theorem exists_toList_topicAddress (topic : String) :
    ∃ rest, (topicAddress topic).toList = topicMark.toList ++ rest := by
  unfold topicAddress
  split
  next h =>
    obtain ⟨rest, hrest⟩ := List.isPrefixOf_iff_prefix.mp h
    exact ⟨rest, hrest.symm⟩
  next => exact ⟨topic.toList, String.toList_append⟩

/-- The queue of a durable subscription is not named like the address of a topic. -/
theorem durableQueueName_ne_topicAddress (client name topic : String) :
    durableQueueName (some client) name ≠ topicAddress topic := by
  intro heq
  obtain ⟨rest, hrest⟩ := exists_toList_topicAddress topic
  have hchars : escapeChars client.toList ++ '.' :: escapeChars name.toList =
      'j' :: 'm' :: 's' :: '.' :: 't' :: 'o' :: 'p' :: 'i' :: 'c' :: '.' :: rest := by
    rw [← toList_durableQueueName, heq, hrest]
    rfl
  have hclient := component_escapeChars_separator client.toList (escapeChars name.toList)
  rw [hchars] at hclient
  have hparts : client.toList = ['j', 'm', 's'] ∧
      escapeChars name.toList = 't' :: 'o' :: 'p' :: 'i' :: 'c' :: '.' :: rest := by
    simpa [component, Except.map] using hclient.symm
  have hend := component_escapeChars name.toList
  rw [hparts.2] at hend
  simp [component, Except.map] at hend

end BrokerAdmin.Subscription
