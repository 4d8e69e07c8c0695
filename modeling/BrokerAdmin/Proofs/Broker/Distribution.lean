import BrokerAdmin.Proofs.Broker.Movement
import BrokerAdmin.Proofs.Broker.Pausing

/-!
# How a message is shared out

A message that is sent to an address goes to every multicast queue that lets it in and to one anycast queue,
the oldest that does. Which queue is the oldest can be read off the list of the address: queues join it at
its end when they are created and leave it when they are destroyed, so it is always in the order of
creation, also when a name is given a second time.
-/

namespace BrokerAdmin

/-- A queue lets a message in: it has no filter, or its filter matches. -/
def Queue.LetsIn (q : Queue) (m : Message) : Prop :=
  ∀ text, q.options.filter = some text → ∃ e, Filter.parse text = .ok e ∧ e.accepts m = true

/-- A queue admits just what it lets in. -/
theorem Queue.admits_eq_ok_true_iff (q : Queue) (m : Message) : q.admits m = .ok true ↔ q.LetsIn m := by
  unfold admits LetsIn
  cases q.options.filter with
  | none => simp
  | some text =>
    simp only [map_eq_ok_iff, Broker.readFilter_eq_ok_iff, Option.some.injEq, forall_eq']

namespace Broker

/-! ### The list of an address -/

/-- The queues that an address lists, and none where there is no such address. -/
def listed (b : Broker) (address : String) : List String :=
  ((b.addresses.get? address).map Address.queues).getD []

/-- An address that is there lists its queues. -/
theorem listed_of_get? {b : Broker} {address : String} {a : Address}
    (ha : b.addresses.get? address = some a) : b.listed address = a.queues := by
  rw [listed, ha]
  rfl

/-- The queues that an address of a well-formed broker lists are there. -/
theorem WellFormed.exists_of_mem_listed {b : Broker} (hb : b.WellFormed) {address name : String}
    (hname : name ∈ b.listed address) : ∃ q, b.queues.get? name = some q := by
  cases ha : b.addresses.get? address with
  | none => simp [listed, ha] at hname
  | some a =>
    rw [listed_of_get? ha] at hname
    obtain ⟨q, hq, -⟩ := hb.records ha name hname
    exact ⟨q, hq⟩

/-- What becomes of the list of an address: some queues leave it, or a new one joins it at the end. -/
inductive Relisted (queues : Catalog Queue) (before : List String) : List String → Prop
  | left {names : List String} : names.Sublist before → Relisted queues before names
  | joined {name : String} : queues.get? name = none → Relisted queues before (before ++ [name])

/-- The list may stay as it is. -/
theorem Relisted.of_eq {queues : Catalog Queue} {before names : List String} (h : names = before) :
    Relisted queues before names :=
  .left (h ▸ List.Sublist.refl before)

/-- A list stays while addresses stay as they are. -/
theorem listed_of_eq {b b' : Broker} (h : b'.addresses = b.addresses) (address : String) :
    b'.listed address = b.listed address := by
  rw [listed, listed, h]

/-- A list stays when an address is changed in something else. -/
theorem listed_of_modify {b b' : Broker} {other : String} {f : Address → Address}
    (h : b'.addresses = b.addresses.modify other f) (hf : ∀ a, (f a).queues = a.queues)
    (address : String) : b'.listed address = b.listed address := by
  rw [listed, listed, h, Catalog.get?_modify]
  split
  next =>
    cases b.addresses.get? address with
    | none => rfl
    | some a => exact hf a
  next => rfl

/-- A new address lists nothing, and others list what they did. -/
theorem listed_withAddress {b : Broker} {other : String} (hnone : b.addresses.get? other = none)
    (address : String) : (b.withAddress other).listed address = b.listed address := by
  by_cases haddress : address = other
  · simp [listed, withAddress, haddress, hnone, Address.empty]
  · simp [listed, withAddress, haddress]

/-- An address that is created changes no list. -/
theorem listed_createAddress (b : Broker) (other address : String) :
    (b.createAddress other).2.listed address = b.listed address := by
  rcases b.createAddress_cases other with heq | ⟨hnone, heq⟩
  · rw [heq]
  · rw [heq, listed_withAddress hnone]

/-- A new topic lists its placeholder, and others list what they did. -/
theorem listed_withTopic {b : Broker} {other : String} (hnone : b.addresses.get? other = none)
    (placeholder address : String) : (b.withTopic other placeholder).listed address =
      if address = other then b.listed address ++ [placeholder] else b.listed address := by
  by_cases haddress : address = other
  · simp [listed, withTopic, haddress, hnone]
  · simp [listed, withTopic, haddress]

/-- A queue that is created joins the list of its address at the end. -/
theorem listed_withQueue (b : Broker) (other name : String) (options : QueueOptions) (address : String) :
    (b.withQueue other name options).listed address =
      if address = other then b.listed address ++ [name] else b.listed address := by
  by_cases haddress : address = other
  · subst haddress
    cases ha : b.addresses.get? address <;> simp [listed, withQueue, ha, Address.empty]
  · simp [listed, withQueue, haddress]

/-- A queue that is destroyed leaves the list of its address, and no other queue does. -/
theorem listed_withoutQueue (b : Broker) (other name address : String) :
    ((b.withoutQueue other name).listed address).Sublist (b.listed address) := by
  rw [listed, listed, get?_withoutQueue]
  split
  next =>
    cases b.addresses.get? address with
    | none => exact List.Sublist.refl _
    | some a => exact List.filter_sublist
  next => exact List.Sublist.refl _

/-- Creating a queue lists it at the end, or changes no list. -/
theorem relisted_createQueue (b : Broker) (other name : String) (options : QueueOptions)
    (address : String) :
    Relisted b.queues (b.listed address) ((b.createQueue other name options).2.listed address) := by
  rcases b.createQueue_cases other name options with ⟨e, heq⟩ | ⟨hnone, heq⟩
  · exact .of_eq (by rw [heq])
  · rw [heq, listed_withQueue]
    split
    next => exact .joined hnone
    next => exact .of_eq rfl

/-- Creating a topic lists its placeholder at the end, or changes no list. -/
theorem relisted_createTopicWithPlaceholder (b : Broker) (other placeholder address : String) :
    Relisted b.queues (b.listed address)
      ((b.createTopicWithPlaceholder other placeholder).2.listed address) := by
  rcases b.createTopic_cases other placeholder with heq | ⟨hnone, heq | ⟨hfree, heq⟩⟩
  · exact .of_eq (by rw [heq])
  · exact .of_eq (by rw [heq, listed_withAddress hnone])
  · rw [heq, listed_withTopic hnone]
    split
    next => exact .joined hfree
    next => exact .of_eq rfl

/-- Destroying a queue takes it from a list, or changes none. -/
theorem relisted_destroyQueue (b : Broker) (name : String) (removeConsumers : Bool) (address : String) :
    Relisted b.queues (b.listed address) ((b.destroyQueue name removeConsumers).2.listed address) := by
  rcases b.destroyQueue_eq name removeConsumers with heq | ⟨q, -, heq⟩
  · rw [heq]
    exact .of_eq rfl
  · rw [heq]
    exact .left (listed_withoutQueue _ q.address name address)

/-- An action takes queues from the list of an address or adds a new one at its end. -/
theorem relisted_perform (b : Broker) (action : Action) (address : String) :
    Relisted b.queues (b.listed address) ((b.perform action).listed address) := by
  by_cases haddresses : action.isAboutAddresses = true
  · cases action with
    | createAddress other => exact .of_eq (b.listed_createAddress other address)
    | createTopic other => exact b.relisted_createTopicWithPlaceholder other other address
    | createTopicWithPlaceholder other placeholder =>
      exact b.relisted_createTopicWithPlaceholder other placeholder address
    | createQueue other name options => exact b.relisted_createQueue other name options address
    | destroyQueue name removeConsumers => exact b.relisted_destroyQueue name removeConsumers address
    | pauseAddress other persist =>
      exact .of_eq (listed_of_modify
        (f := fun a => { a with pause := some (persist || a.pause.getD false) })
        (congrArg addresses (b.pauseAddress_state other persist)) (fun _ => rfl) address)
    | resumeAddress other =>
      exact .of_eq (listed_of_modify (f := fun a => { a with pause := none })
        (congrArg addresses (b.resumeAddress_state other)) (fun _ => rfl) address)
    | _ => contradiction
  · rw [Bool.not_eq_true] at haddresses
    exact .of_eq (listed_of_eq (b.restocks_perform haddresses).addresses address)

/-! ### The order of creation -/

/-- At some point of a run a queue was there and another was not, and the first has been there ever since. -/
def Older (actions : List Action) (name other : String) : Prop :=
  ∃ before after, actions = before ++ after ∧ (run before).queues.get? other = none ∧
    ∀ earlier later, after = earlier ++ later →
      ∃ q, (run (before ++ earlier)).queues.get? name = some q

/-- A queue that is older than another is so after one more action, if it is still there. -/
theorem Older.concat {actions : List Action} {name other : String} (h : Older actions name other)
    {action : Action} (hname : ∃ q, (run (actions ++ [action])).queues.get? name = some q) :
    Older (actions ++ [action]) name other := by
  obtain ⟨before, after, rfl, hnone, hsince⟩ := h
  refine ⟨before, after ++ [action], List.append_assoc .., hnone, fun earlier later hafter => ?_⟩
  rcases List.eq_nil_or_concat later with rfl | ⟨rest, last, rfl⟩
  · rw [List.append_nil] at hafter
    rwa [← hafter, ← List.append_assoc]
  · rw [List.concat_eq_append, ← List.append_assoc] at hafter
    exact hsince earlier rest (List.append_inj' hafter rfl).1

/-- A queue that stays is older than one that was not there before the last action. -/
theorem older_concat {actions : List Action} {name other : String} {action : Action}
    (hother : (run actions).queues.get? other = none)
    (hbefore : ∃ q, (run actions).queues.get? name = some q)
    (hname : ∃ q, (run (actions ++ [action])).queues.get? name = some q) :
    Older (actions ++ [action]) name other := by
  refine ⟨actions, [action], rfl, hother, fun earlier later hsplit => ?_⟩
  rcases List.append_eq_singleton_iff.mp hsplit.symm with ⟨rfl, -⟩ | ⟨rfl, -⟩
  · rwa [List.append_nil]
  · exact hname

/-- After every run an address lists its queues in the order of their creation. -/
theorem listed_pairwise_older (actions : List Action) (address : String) :
    ((run actions).listed address).Pairwise (Older actions) := by
  -- from the end, because the age of a queue depends on the actions since it came
  induction actions using List.reverseRecOn with
  | nil => exact List.Pairwise.nil
  | append_singleton actions action ih =>
    have hthere : ∀ name ∈ (run (actions ++ [action])).listed address,
        ∃ q, (run (actions ++ [action])).queues.get? name = some q :=
      fun name hname => (Reachable.wellFormed ⟨_, rfl⟩).exists_of_mem_listed hname
    have hrelisted := (run actions).relisted_perform action address
    rw [← run_concat] at hrelisted
    generalize (run (actions ++ [action])).listed address = names at hrelisted hthere
    cases hrelisted with
    | left hsublist =>
      exact (ih.sublist hsublist).imp_of_mem fun hname _ hold => hold.concat (hthere _ hname)
    | @joined new hnew =>
      refine List.pairwise_append.mpr ⟨?_, List.pairwise_singleton _ _, fun name hname other hother => ?_⟩
      · exact ih.imp_of_mem fun hname _ hold => hold.concat (hthere _ (List.mem_append_left _ hname))
      · obtain rfl := List.mem_singleton.mp hother
        exact older_concat hnew ((Reachable.wellFormed ⟨_, rfl⟩).exists_of_mem_listed hname)
          (hthere name (List.mem_append_left _ hname))

/-! ### Who gets a message -/

/-- A queue of that routing is there and lets a message in. -/
def Welcomes (b : Broker) (m : Message) (routing : Routing) (name : String) : Prop :=
  ∃ q, b.queues.get? name = some q ∧ q.options.routing = routing ∧ q.LetsIn m

/-- One of several queues gets a message: it is a multicast queue that lets the message in, or the first
anycast queue that does. -/
def Gets (b : Broker) (m : Message) (names : List String) (name : String) : Prop :=
  (name ∈ names ∧ b.Welcomes m .multicast name) ∨
    ∃ before after, names = before ++ name :: after ∧ b.Welcomes m .anycast name ∧
      ∀ other ∈ before, ¬ b.Welcomes m .anycast other

/-- Whether a queue takes a message is whether it is of that routing and lets the message in. -/
theorem takes_eq_true_iff (b : Broker) (m : Message) (routing : Routing) (name : String) :
    takes m b.queues routing name = true ↔ b.Welcomes m routing name := by
  unfold takes Welcomes
  cases b.queues.get? name with
  | none => simp
  | some q =>
    have hadmits : (q.admits m).toOption.getD false = true ↔ q.LetsIn m := by
      rw [← q.admits_eq_ok_true_iff]
      cases q.admits m <;> simp [Except.toOption]
    simp [hadmits]

/-- The queues that a message is routed to are those that get it. -/
theorem mem_takers_iff (b : Broker) (m : Message) (names : List String) (name : String) :
    name ∈ takers m false names b.queues ↔ b.Gets m names name := by
  unfold takers Gets
  rw [List.mem_append, List.mem_filter, takes_eq_true_iff]
  refine or_congr_right ?_
  simp only [Bool.false_eq_true, if_false, Option.mem_toList, List.find?_eq_some_iff_append,
    Bool.not_eq_true', ← Bool.not_eq_true, takes_eq_true_iff]
  constructor
  · rintro ⟨hname, before, after, hnames, hbefore⟩
    exact ⟨before, after, hnames, hname, hbefore⟩
  · rintro ⟨before, after, hnames, hname, hbefore⟩
    exact ⟨hname, before, after, hnames, hbefore⟩

/-- The recipients of a message are those queues of its address that get it. -/
theorem mem_recipients_iff {b : Broker} {address : String} {a : Address}
    (ha : b.addresses.get? address = some a) (m : Message) (name : String) :
    name ∈ b.recipients address m ↔ b.Gets m a.queues name := by
  rw [recipients, ha]
  -- no filter asks for the identifier
  exact b.mem_takers_iff (b.stamped m) a.queues name

/-- What sending does after any run: of the queues that the address lists in the order of their creation,
every multicast queue that lets the message in and the first anycast queue that does get it at their
tail, under the next identifier. The answer is their number, and nothing else changes. -/
theorem run_sends_exactly (actions : List Action) {address : String} {a : Address}
    (ha : (run actions).addresses.get? address = some a) (m : Message) :
    a.queues.Pairwise (Older actions) ∧
      ∃ (getting : List String) (queues : Catalog Queue), getting.Nodup ∧
        (∀ name, name ∈ getting ↔ (run actions).Gets m a.queues name) ∧
        (run actions).send address m = (.ok getting.length, { run actions with
          lastMessageId := (run actions).lastMessageId + 1, queues := queues }) ∧
        ∀ name, queues.get? name = ((run actions).queues.get? name).map fun q =>
          if name ∈ getting then
            { q with messages := q.messages ++ [{ m with id := (run actions).lastMessageId + 1 }] }
          else q := by
  have hb : (run actions).WellFormed := Reachable.wellFormed ⟨actions, rfl⟩
  have hage := listed_pairwise_older actions address
  rw [listed_of_get? ha] at hage
  refine ⟨hage, _, _, (hb.recipients_valid address m).1, mem_recipients_iff ha m, hb.send_eq ha m, ?_⟩
  intro name
  rw [Catalog.get?_mapEntries]
  rfl

/-- A queue that is created anew is younger than one that came in between, though its name is older. A message
for the first anycast queue passes by one whose filter it does not match. -/
theorem run_sends_exactly_recreated :
    let actions : List Action := [
      .createQueue "t" "a" { routing := .anycast, filter := some "x IS NOT NULL" },
      .createQueue "t" "b" { routing := .anycast }, .createQueue "t" "c" {},
      .createQueue "t" "d" { routing := .anycast }, .destroyQueue "b" true,
      .createQueue "t" "b" { routing := .anycast }]
    (run actions).addresses.get? "t" = some ⟨["a", "c", "d", "b"], none, none⟩ ∧
      Older actions "d" "b" ∧
      ∃ getting : List String, getting.Nodup ∧
        (∀ name, name ∈ getting ↔
          (run actions).Gets (.ofBody "text" 0) ["a", "c", "d", "b"] name) ∧
        ((run actions).send "t" (.ofBody "text" 0)).1 = .ok getting.length := by
  intro actions
  have ha : (run actions).addresses.get? "t" = some ⟨["a", "c", "d", "b"], none, none⟩ := by decide +kernel
  obtain ⟨hage, getting, queues, hnodup, hgetting, hsend, -⟩ :=
    run_sends_exactly actions ha (.ofBody "text" 0)
  have hsublist : ["d", "b"].Sublist ["a", "c", "d", "b"] := by decide
  have holder : Older actions "d" "b" := by simpa using hage.sublist hsublist
  exact ⟨ha, holder, getting, hnodup, hgetting, by rw [hsend]⟩

end Broker

end BrokerAdmin
