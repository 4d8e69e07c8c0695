import BrokerAdmin.Proofs.Broker.Order
import BrokerAdmin.Proofs.Subscription.Listing
import Mathlib.Tactic.FinCases

/-!
# Replies as texts

A listing can be asked for as a JSON text. The text says the same as the listing: where the one fails the
other fails alike, and otherwise the listing is read back from the text. Of subscriptions this is so of every
listing. Messages are written with their properties among their headers, so the listing of messages is read
back just when no property of a message that is listed is named like a header; otherwise the header stands
twice in a record, which is then malformed.

What is read back has to fit the types it is read as. The numbers that a broker counts with do as long as
its last identifier has 64 bits, since no queue holds more messages than identifiers have been given out.
-/

namespace BrokerAdmin

/-! ### Records -/

namespace Reading

/-- A natural number below a power of two is taken from its value. -/
theorem nat?_exact {bits n : Nat} (h : n < 2 ^ bits) : exact.nat? bits (.int n) = some n := by
  have hbounds : decide ((0 : Int) ≤ n) && decide ((n : Int) ≤ 2 ^ bits - 1) := by
    have hgreatest : (n : Int) < 2 ^ bits := by exact_mod_cast h
    simp only [Bool.and_eq_true, decide_eq_true_eq]
    omega
  have hint : exact.intIn? 0 (2 ^ bits - 1) (.int n) = some (n : Int) := by
    rw [intIn?, Option.filter_eq_some_iff]
    exact ⟨rfl, hbounds⟩
  rw [nat?, hint]
  rfl

end Reading

namespace Value

variable {fields more : List (String × Value)} {name : String}

/-- Fields behind others do not matter to a name that none of them has. -/
theorem field?_append_of_forall (h : ∀ field ∈ more, field.1 ≠ name) :
    field? (fields ++ more) name = field? fields name := by
  have hmore : more.filter (fun field => field.1 == name) = [] :=
    List.filter_eq_nil_iff.mpr fun field hfield => by simpa using h field hfield
  rw [field?, List.filter_append, hmore, List.append_nil]
  rfl

/-- A field that stands among others and behind them is malformed. -/
theorem field?_append_of_exists (hfields : ∃ field ∈ fields, field.1 = name)
    (hmore : ∃ field ∈ more, field.1 = name) : field? (fields ++ more) name = none := by
  have hfound {fields : List (String × Value)} (h : ∃ field ∈ fields, field.1 = name) :
      ∃ first rest, fields.filter (fun field => field.1 == name) = first :: rest := by
    obtain ⟨field, hfield, hname⟩ := h
    have hmem : field ∈ fields.filter fun field => field.1 == name :=
      List.mem_filter.mpr ⟨hfield, by simpa using hname⟩
    exact List.exists_cons_of_ne_nil (List.ne_nil_of_mem hmem)
  obtain ⟨first, rest, hfirst⟩ := hfound hfields
  obtain ⟨second, others, hsecond⟩ := hfound hmore
  rw [field?, List.filter_append, hfirst, hsecond]
  cases rest <;> rfl

/-- Each item of a list that is read is read. -/
theorem exists_of_listOf {α : Type} {read : Value → Option α} {items : List Value} {results : List α}
    (h : listOf read (.list items) = some results) : ∀ item ∈ items, ∃ a, read item = some a := by
  change items.mapM read = some results at h
  induction items generalizing results with
  | nil => nofun
  | cons item items ih =>
    rw [List.mapM_cons] at h
    obtain ⟨a, ha, h⟩ := Option.bind_eq_some_iff.mp h
    obtain ⟨rest, hrest, -⟩ := Option.bind_eq_some_iff.mp h
    exact List.forall_mem_cons.mpr ⟨⟨a, ha⟩, ih hrest⟩

/-- Fields with canonical values are canonical. -/
theorem canonicalFields_eq_self (h : ∀ field ∈ fields, field.2.canonical = field.2) :
    canonicalFields fields = fields := by
  induction fields with
  | nil => rfl
  | cons field rest ih =>
    obtain ⟨hfield, hrest⟩ := List.forall_mem_cons.mp h
    rw [canonicalFields, hfield, ih hrest]

end Value

/-- A text or null is kept by JSON text. -/
theorem Value.kept_ofText? (s : Option String) : Json.Kept (fun _ => false) (Value.ofText? s) := by
  cases s with
  | none => exact .null
  | some text => exact .text text

/-- A text or null is read back. -/
theorem Value.nullable_ofText? (s : Option String) :
    Value.nullable Reading.exact.text? (Value.ofText? s) = some s := by
  cases s <;> rfl

/-! ### Subscriptions -/

namespace Subscription

/-- The counts of a subscription and the times of its consumers have 64 bits. -/
structure Fits (s : Subscription) : Prop where
  messageCount : s.messageCount < 2 ^ 64
  deliveringCount : s.deliveringCount < 2 ^ 64
  consumers : ∀ c ∈ s.consumers, c.IsTimed

/-- A subscription is told from its record. -/
theorem ofValue?_toValue {s : Subscription} (h : s.Fits) : ofValue? s.toValue = some s := by
  have htext (text : String) : Reading.exact.text? (.text text) = some text := rfl
  have hbool : Reading.exact.bool? (.bool s.durable) = some s.durable := rfl
  have hconsumers : Value.listOf Consumer.ofValue? (.list (s.consumers.map Consumer.toValue)) =
      some s.consumers := Value.listOf_map fun c hc => Consumer.ofValue?_toValue (h.consumers c hc)
  simp [ofValue?, toValue, Value.required, Value.optional, Value.defaulted, Value.field?,
    htext, hbool, hconsumers, Reading.nat?_exact h.messageCount, Reading.nat?_exact h.deliveringCount,
    Value.nullable_ofText?]

/-- The record of a subscription is kept by JSON text. -/
theorem kept_toValue {s : Subscription} (h : s.Fits) : Json.Kept (fun _ => false) s.toValue := by
  have hcount {n : Nat} (hn : n < 2 ^ 64) : Json.FitsBits n := ⟨by omega, by omega⟩
  have hconsumers : Json.Kept (fun _ => false) (.list (s.consumers.map Consumer.toValue)) :=
    .map fun c hc => (Consumer.kept_toValue (h.consumers c hc)).everywhere
  refine .table (fun _ _ => rfl) ?_
  simp only [List.forall_mem_cons]
  exact ⟨.text s.queueName, .bool s.durable, .int (hcount h.messageCount), .int (hcount h.deliveringCount),
    hconsumers, Value.kept_ofText? s.client, Value.kept_ofText? s.filter, Value.kept_ofText? s.name, nofun⟩

/-- Subscriptions are told from the text that lists them. -/
theorem ofListText?_listText {items : List Subscription} (h : ∀ s ∈ items, s.Fits) :
    ofListText? (listText items) = some items := by
  have hkept : Json.Kept (fun _ => false) (.list (items.map toValue)) := .map fun s hs => kept_toValue (h s hs)
  rw [ofListText?, listText, Json.parse?, Json.parseIgnoring?_render hkept]
  exact Value.listOf_map fun s hs => ofValue?_toValue (h s hs)

end Subscription

/-! ### Messages -/

/-- Whether a number has been read can be decided. -/
instance (found : Option Value) (x : Binary64) : Decidable (found = some (.float x)) :=
  match found with
  | some (.float y) => decidable_of_iff (y = x) (by simp)
  | none | some .null | some (.bool _) | some (.int _) | some (.text _) | some (.list _) | some (.table _) =>
    isFalse nofun

/-- The numbers of a message fit the types they are read as, and its properties are values that JSON text
keeps and tables in canonical form. -/
structure Message.Fits (m : Message) : Prop where
  priority : m.priority < 2 ^ 8
  timestamp : -2 ^ 63 ≤ m.timestamp ∧ m.timestamp < 2 ^ 63
  expiration : -2 ^ 63 ≤ m.expiration ∧ m.expiration < 2 ^ 63
  kept : ∀ entry ∈ m.properties.entries, Json.Kept (fun _ => false) entry.2
  canonical : ∀ entry ∈ m.properties.entries, entry.2.canonical = entry.2

/-- None of the properties of a message is named like a header. -/
def Message.IsFree (m : Message) : Prop :=
  ∀ name ∈ MessageView.headerNames, m.properties.get? name = none

namespace MessageView

variable {m : Message}

/-- The headers of a message with their values. -/
def headers (m : Message) : List (String × Value) :=
  [("JMSMessageID", Value.ofText? m.userId), ("JMSPriority", .int m.priority),
    ("JMSTimestamp", .int m.timestamp), ("JMSExpiration", .int m.expiration),
    ("JMSDeliveryMode", .text (deliveryMode m.durable)), ("messageID", .int m.id)]

/-- A message is written with its headers in front of its properties. -/
theorem toValue_ofMessage (m : Message) :
    (ofMessage m).toValue = .table (headers m ++ m.properties.entries) := rfl

/-- A way of delivery is told from its name. -/
theorem durable?_deliveryMode (durable : Bool) : durable? (.text (deliveryMode durable)) = some durable := by
  cases durable <;> decide

/-- Where no property is named like a header, none of them has the name of one. -/
theorem ne_of_isFree (hfree : m.IsFree) {name : String} (hname : name ∈ headerNames) :
    ∀ entry ∈ m.properties.entries, entry.1 ≠ name := by
  rintro ⟨other, value⟩ hentry rfl
  have hvalue := (m.properties.get?_eq_some_iff other value).mpr hentry
  rw [hfree other hname] at hvalue
  contradiction

/-- The properties of a message are those of its fields that are no headers. -/
theorem propertiesOf_fields (hfits : m.Fits) (hfree : m.IsFree) :
    propertiesOf (headers m ++ m.properties.entries) = m.properties := by
  have hheaders : (headers m).filter (fun field => !headerNames.contains field.1) = [] := rfl
  have hentries : m.properties.entries.filter (fun field => !headerNames.contains field.1) =
      m.properties.entries := by
    refine List.filter_eq_self.mpr fun entry hentry => ?_
    rw [Bool.not_eq_true', List.contains_eq_mem, decide_eq_false_iff_not]
    intro hname
    exact ne_of_isFree hfree hname entry hentry rfl
  rw [propertiesOf, List.filter_append, hheaders, hentries, List.nil_append,
    Value.canonicalFields_eq_self hfits.canonical, Catalog.ofList_entries]

/-- A message is told from its record where no property is named like a header. -/
theorem ofValue?_toValue (hfits : m.Fits) (hid : m.id < 2 ^ 64) (hfree : m.IsFree) :
    ofValue? (ofMessage m).toValue = some (ofMessage m) := by
  have hfield {name : String} (hname : name ∈ headerNames) :
      Value.field? (headers m ++ m.properties.entries) name = Value.field? (headers m) name :=
    Value.field?_append_of_forall (ne_of_isFree hfree hname)
  have huser : Value.optional (headers m ++ m.properties.entries) "JMSMessageID" Reading.exact.text? =
      some m.userId := by
    rw [Value.optional, Value.defaulted, hfield (by decide)]
    exact Value.nullable_ofText? m.userId
  have hpriority : Value.required (headers m ++ m.properties.entries) "JMSPriority"
      (Reading.exact.nat? 8) = some m.priority := by
    rw [Value.required, hfield (by decide)]
    exact Reading.nat?_exact hfits.priority
  have htimestamp : Value.required (headers m ++ m.properties.entries) "JMSTimestamp"
      Reading.exact.int64? = some m.timestamp := by
    rw [Value.required, hfield (by decide)]
    exact Reading.int64?_exact hfits.timestamp
  have hexpiration : Value.required (headers m ++ m.properties.entries) "JMSExpiration"
      Reading.exact.int64? = some m.expiration := by
    rw [Value.required, hfield (by decide)]
    exact Reading.int64?_exact hfits.expiration
  have hdurable : Value.required (headers m ++ m.properties.entries) "JMSDeliveryMode" durable? =
      some m.durable := by
    rw [Value.required, hfield (by decide)]
    exact durable?_deliveryMode m.durable
  have hidentifier : Value.required (headers m ++ m.properties.entries) "messageID"
      (Reading.exact.nat? 64) = some m.id := by
    rw [Value.required, hfield (by decide)]
    exact Reading.nat?_exact hid
  rw [toValue_ofMessage, ofValue?]
  simp only [huser, hpriority, htimestamp, hexpiration, hdurable, hidentifier,
    propertiesOf_fields hfits hfree]
  rfl

/-- What is read as a message has each header once, or lacks one that may be missing. -/
theorem exists_field_of_ofValue? {fields : List (String × Value)} {v : MessageView}
    (h : ofValue? (.table fields) = some v) : ∀ name ∈ headerNames, ∃ value,
      Value.field? fields name = some value := by
  have hfield {α : Type} {name : String} {read : Option Value → Option α} {a : α}
      (h : (Value.field? fields name).bind read = some a) : ∃ value, Value.field? fields name = some value := by
    obtain ⟨value, hvalue, -⟩ := Option.bind_eq_some_iff.mp h
    exact ⟨value, hvalue⟩
  unfold ofValue? at h
  obtain ⟨_, huser, h⟩ := Option.bind_eq_some_iff.mp h
  obtain ⟨_, hpriority, h⟩ := Option.bind_eq_some_iff.mp h
  obtain ⟨_, htimestamp, h⟩ := Option.bind_eq_some_iff.mp h
  obtain ⟨_, hexpiration, h⟩ := Option.bind_eq_some_iff.mp h
  obtain ⟨_, hdurable, h⟩ := Option.bind_eq_some_iff.mp h
  obtain ⟨_, hidentifier, h⟩ := Option.bind_eq_some_iff.mp h
  simp only [headerNames, List.forall_mem_cons]
  exact ⟨hfield huser, hfield hpriority, hfield htimestamp, hfield hexpiration, hfield hdurable,
    hfield hidentifier, nofun⟩

/-- A message with a property that is named like a header is not told from its record. -/
theorem ofValue?_eq_none (hclash : ¬ m.IsFree) : ofValue? (ofMessage m).toValue = none := by
  by_contra hread
  obtain ⟨v, hv⟩ := Option.ne_none_iff_exists'.mp hread
  rw [toValue_ofMessage] at hv
  refine hclash fun name hname => ?_
  obtain ⟨value, hvalue⟩ := exists_field_of_ofValue? hv name hname
  by_contra hproperty
  obtain ⟨property, hproperty⟩ := Option.ne_none_iff_exists'.mp hproperty
  have hheader : ∃ field ∈ headers m, field.1 = name := by
    have hnames : (headers m).map Prod.fst = headerNames := rfl
    rw [← hnames] at hname
    exact List.mem_map.mp hname
  have hentry := (m.properties.get?_eq_some_iff name property).mp hproperty
  rw [Value.field?_append_of_exists hheader ⟨_, hentry, rfl⟩] at hvalue
  contradiction

/-- The record of a message is kept by JSON text. -/
theorem kept_toValue (hfits : m.Fits) (hid : m.id < 2 ^ 64) :
    Json.Kept (fun _ => false) (ofMessage m).toValue := by
  obtain ⟨hpriority, ⟨htimestamp, htimestamp'⟩, ⟨hexpiration, hexpiration'⟩, hkept, -⟩ := hfits
  rw [toValue_ofMessage]
  refine .table (fun _ _ => rfl) (List.forall_mem_append.mpr ⟨?_, hkept⟩)
  simp only [headers, List.forall_mem_cons]
  exact ⟨Value.kept_ofText? m.userId, .int ⟨by omega, by omega⟩, .int ⟨htimestamp, by omega⟩, .int ⟨hexpiration, by omega⟩,
    .text _, .int ⟨by omega, by omega⟩, nofun⟩

/-- Messages are told from the text that lists them just when no property is named like a header. -/
theorem ofListText?_listText_iff {messages : List Message} (hfits : ∀ m ∈ messages, m.Fits)
    (hids : ∀ m ∈ messages, m.id < 2 ^ 64) :
    ofListText? (listText (messages.map ofMessage)) = some (messages.map ofMessage) ↔
      ∀ m ∈ messages, m.IsFree := by
  have hkept : Json.Kept (fun _ => false) (.list ((messages.map ofMessage).map toValue)) := by
    rw [List.map_map]
    exact .map fun m hm => kept_toValue (hfits m hm) (hids m hm)
  rw [ofListText?, listText, Json.parse?, Json.parseIgnoring?_render hkept, Option.bind_some]
  constructor
  · intro hread m hm
    by_contra hclash
    obtain ⟨v, hv⟩ := Value.exists_of_listOf hread _ (List.mem_map_of_mem (List.mem_map_of_mem hm))
    rw [ofValue?_eq_none hclash] at hv
    contradiction
  · intro hfree
    refine Value.listOf_map fun v hv => ?_
    obtain ⟨m, hm, rfl⟩ := List.mem_map.mp hv
    exact ofValue?_toValue (hfits m hm) (hids m hm) (hfree m hm)

end MessageView

/-! ### Replies -/

namespace Subscription

/-- A reply by a text agrees with the reply that it stands for: both are the same error, or the text is read
as what is listed. -/
inductive Agrees : Except Error Reply → Except Error Reply → Prop
  | error (e : Error) : Agrees (.error e) (.error e)
  | subscriptions {items : List Subscription} {text : String} : ofListText? text = some items →
      Agrees (.ok (.subscriptions items)) (.ok (.text text))
  | messages {views : List MessageView} {text : String} : MessageView.ofListText? text = some views →
      Agrees (.ok (.messages views)) (.ok (.text text))

variable {b : Broker} {address queueName : String}

/-- The numbers of what is listed of a reachable broker fit. -/
theorem fits_of_mem_list (hb : b.Reachable) (hids : b.lastMessageId < 2 ^ 64) {durability : Durability}
    {items : List Subscription} (hlist : list Broker.handle durability address b = .ok items) :
    ∀ s ∈ items, s.Fits := by
  obtain ⟨a, -, hentries⟩ := exists_mapM_of_list_eq_ok hb hlist
  intro s hs
  obtain ⟨⟨name, q⟩, hitem, hentry⟩ := exists_of_mem_mapM_eq_ok hentries hs
  have hq : b.queues.get? name = some q := get?_of_mem_subscribed hitem
  have hdescribes := entryOf_eq_ok_iff.mp hentry
  have hlength : q.delivering.length + q.messages.length ≤ b.lastMessageId := by
    have hline := (hb.ordered name q hq).length_line_le
    rwa [Queue.line, List.length_append] at hline
  have hmessages := hdescribes.messageCount
  have hdelivering := hdescribes.deliveringCount
  dsimp only at hmessages hdelivering
  exact ⟨by omega, by omega, fun c hc => hb.isTimed_of_mem hq c (hdescribes.consumers ▸ hc)⟩

/-- A queue that is not there has no messages to list. -/
theorem listMessages_of_none (hq : b.queues.get? queueName = none) :
    listMessages Broker.handle queueName b = .error (.noSuchQueue queueName) := by
  have hcontrol : Broker.handle.queueControl queueName b = none := by
    change (b.queues.get? queueName).map _ = none
    rw [hq]
    rfl
  rw [listMessages, hcontrol]

/-- The messages that wait in a queue are listed. -/
theorem listMessages_of_some {q : Queue} (hq : b.queues.get? queueName = some q) :
    listMessages Broker.handle queueName b = .ok (q.messages.map MessageView.ofMessage) := by
  have hcontrol : Broker.handle.queueControl queueName b = some ⟨queueName, q.options⟩ := by
    change (b.queues.get? queueName).map _ = _
    rw [hq]
    rfl
  have hmessages : Broker.handle.listMessages queueName none b = .ok q.messages := by
    change (b.queue queueName).map (fun q => q.messages.filter (Filter.accepts none)) = _
    rw [Broker.queue, hq]
    exact congrArg Except.ok (List.filter_eq_self.mpr fun _ _ => rfl)
  rw [listMessages, hcontrol, hmessages]

/-- Replies by texts are faithful. In every reachable broker, as long as its last identifier has 64 bits, the
subscriptions of an address are listed as a text that is read as the plain listing, or with the same error.
The messages of a queue that is there are listed as a text, and if their data fit their types and their
numbers are read back where they stand alone, then the text is read as the plain listing exactly when no
property of a listed message is named like a header. -/
theorem textual_replies_faithful (hb : b.Reachable) (hids : b.lastMessageId < 2 ^ 64) :
    (∀ address durability, Agrees (execute Broker.handle address (.list durability false) b).1
      (execute Broker.handle address (.list durability true) b).1) ∧
    ∀ address queueName,
      (b.queues.get? queueName = none →
        Agrees (execute Broker.handle address (.listMessages queueName false) b).1
          (execute Broker.handle address (.listMessages queueName true) b).1) ∧
      ∀ q, b.queues.get? queueName = some q →
        (execute Broker.handle address (.listMessages queueName false) b).1 =
          .ok (.messages (q.messages.map MessageView.ofMessage)) ∧
        (∃ text, (execute Broker.handle address (.listMessages queueName true) b).1 = .ok (.text text)) ∧
        ((∀ m ∈ q.messages, m.Fits) →
          (Agrees (execute Broker.handle address (.listMessages queueName false) b).1
            (execute Broker.handle address (.listMessages queueName true) b).1 ↔
              ∀ m ∈ q.messages, m.IsFree)) := by
  refine ⟨fun address durability => ?_, fun address queueName => ⟨fun hq => ?_, fun q hq => ?_⟩⟩
  · simp only [execute]
    cases hlist : list Broker.handle durability address b with
    | error e => exact .error e
    | ok items => exact .subscriptions (ofListText?_listText (fits_of_mem_list hb hids hlist))
  · simp only [execute, listMessages_of_none hq]
    exact .error _
  · simp only [execute, listMessages_of_some hq]
    refine ⟨rfl, ⟨_, rfl⟩, fun hfits => ?_⟩
    have hmids : ∀ m ∈ q.messages, m.id < 2 ^ 64 := fun m hm =>
      ((hb.ordered queueName q hq).bounds m (List.mem_append_right _ hm)).2.trans_lt hids
    rw [← MessageView.ofListText?_listText_iff hfits hmids]
    exact ⟨fun hagrees => by cases hagrees; assumption, .messages⟩

/-- A broker with one message whose property is a number and one whose property is named like a header. -/
def withProperties : Broker :=
  Broker.run [.createTopicWithPlaceholder "t" "p", .createQueue "t" "c.s" {}, .createQueue "u" "c.r" {},
    .addConsumer "c.s" "connection" "session",
    .send "t" { Message.ofBody "" 0 with
      properties := Catalog.ofList [("ratio", .float (.finite false (2 ^ 52) (-53)))] },
    .send "u" { Message.ofBody "" 0 with properties := Catalog.ofList [("JMSPriority", .int 9)] }]

/-- The number is read back, the priority is not told from the header. -/
theorem textual_replies_faithful_properties :
    Agrees (execute Broker.handle "t" (.list .all false) withProperties).1
        (execute Broker.handle "t" (.list .all true) withProperties).1 ∧
      Agrees (execute Broker.handle "t" (.listMessages "c.s" false) withProperties).1
        (execute Broker.handle "t" (.listMessages "c.s" true) withProperties).1 ∧
      ¬ Agrees (execute Broker.handle "u" (.listMessages "c.r" false) withProperties).1
        (execute Broker.handle "u" (.listMessages "c.r" true) withProperties).1 := by
  have hids : withProperties.lastMessageId < 2 ^ 64 := by decide +kernel
  have hnumber : Json.parse? (Json.render (.float (.finite false (2 ^ 52) (-53)))) =
      some (.float (.finite false (2 ^ 52) (-53))) := by decide +kernel
  have hratio : withProperties.queues.get? "c.s" = some ⟨"t", {}, [{ Message.ofBody "" 0 with
      id := 1, properties := Catalog.ofList [("ratio", .float (.finite false (2 ^ 52) (-53)))] }], [],
      [⟨"1", "connection", "session", false, 0⟩]⟩ := rfl
  have hpriority : withProperties.queues.get? "c.r" = some ⟨"u", {}, [{ Message.ofBody "" 0 with
      id := 2, properties := Catalog.ofList [("JMSPriority", .int 9)] }], [], []⟩ := rfl
  have hfits {id : Nat} {name : String} {value : Value} (hkept : Json.Kept (fun _ => false) value)
      (hcanonical : value.canonical = value) : ∀ m ∈ [{ Message.ofBody "" 0 with
        id := id, properties := Catalog.ofList [(name, value)] }], m.Fits := by
    have htime : -2 ^ 63 ≤ (0 : Int) ∧ (0 : Int) < 2 ^ 63 := by decide
    rw [List.forall_mem_singleton]
    exact ⟨(by decide : Message.defaultPriority < 2 ^ 8), htime, htime,
      List.forall_mem_singleton.mpr hkept, List.forall_mem_singleton.mpr hcanonical⟩
  obtain ⟨hlists, hmessages⟩ := textual_replies_faithful ⟨_, rfl⟩ hids
  obtain ⟨-, -, hratio⟩ := (hmessages "t" "c.s").2 _ hratio
  obtain ⟨-, -, hpriority⟩ := (hmessages "u" "c.r").2 _ hpriority
  refine ⟨hlists "t" .all, (hratio (hfits (.float hnumber) rfl)).mpr ?_, fun hagrees => ?_⟩
  · rw [List.forall_mem_singleton]
    intro name hname
    fin_cases hname <;> rfl
  · have hfree := (hpriority (hfits (.int ⟨by decide, by decide⟩) rfl)).mp hagrees
    cases hfree _ List.mem_cons_self "JMSPriority" (by decide)

end Subscription

end BrokerAdmin
