import BrokerAdmin.Proofs.Filter.Joining
import BrokerAdmin.Proofs.Selector.Meaning
import BrokerAdmin.Proofs.Subscription.Identity

/-!
# Counting with selectors

The messages of a durable subscription are counted with a selector as its expression, in the words of the
broker, accepts them. Since translation keeps negations and connections, and a comparison holds or does not
hold even where a value is missing, counts obey the laws of sets: a selector and its negation share out
all messages, and what two selectors have in common is counted twice when they are counted apart.

The laws are about selectors as texts, and about any broker, however it came about.
-/

namespace BrokerAdmin.Subscription

/-! ### Numbers of members -/

/-- The members that satisfy both of two conditions and those that satisfy one are as many as those of each
condition together. -/
theorem length_filter_and_add_or {α : Type} (p q : α → Bool) (items : List α) :
    (items.filter fun a => p a && q a).length + (items.filter fun a => p a || q a).length =
      (items.filter p).length + (items.filter q).length := by
  induction items with
  | nil => rfl
  | cons a items ih =>
    cases hp : p a <;> cases hq : q a <;> simp [hp, hq] <;> omega

/-- How many messages of a queue an expression selects, read in the words of clients. -/
def selected (q : Queue) (e : Filter.Expr) : Nat :=
  (q.held.filter (e.rename Selector.brokerName Selector.brokerText).accepts).length

/-- An expression and its negation share out the messages of a queue. -/
theorem selected_add_selected_not (q : Queue) (e : Filter.Expr) :
    selected q e + selected q (.not e) = q.messages.length + q.delivering.length := by
  have hsplit := List.length_eq_length_filter_add (l := q.held)
    (e.rename Selector.brokerName Selector.brokerText).accepts
  rw [Queue.held, List.length_append] at hsplit
  exact hsplit.symm

/-- What two expressions have in common is selected twice when each selects alone. -/
theorem selected_all_add_selected_any (q : Queue) (e e' : Filter.Expr) :
    selected q (.all [e, e']) + selected q (.any [e, e']) = selected q e + selected q e' := by
  unfold selected
  have hall := funext (Filter.Expr.accepts_all_pair (e.rename Selector.brokerName Selector.brokerText)
    (e'.rename Selector.brokerName Selector.brokerText))
  have hany := funext (Filter.Expr.accepts_any_pair (e.rename Selector.brokerName Selector.brokerText)
    (e'.rename Selector.brokerName Selector.brokerText))
  simp only [Filter.Expr.rename, Filter.Expr.renameTerms]
  rw [hall, hany]
  apply length_filter_and_add_or

/-! ### Counting -/

variable {b : Broker} {client name : String} {q : Queue}

/-- The messages of a queue are counted that a filter accepts. -/
theorem countMessages_of_filter {queueName filter : String} {e : Filter.Expr}
    (hq : b.queues.get? queueName = some q) (hfilter : Filter.parse filter = .ok e) :
    b.countMessages queueName (some filter) = .ok (q.held.filter e.accepts).length := by
  have hread : Broker.readOptionalFilter (some filter) = .ok (some e) :=
    mapError_eq_ok_iff.mpr (Filter.parseOptional_of_parse hfilter)
  have hqueue := (b.queue_eq_ok_iff queueName q).mpr hq
  rw [Broker.countMessages, hread]
  change (b.queue queueName).map _ = _
  rw [hqueue]
  rfl

/-- A durable subscription is counted with every selector that can be read as a filter. -/
theorem countMessages_of_parse (hclient : client ≠ "") (hname : name ≠ "")
    (hq : b.queues.get? (durableQueueName (some client) name) = some q) {selector : String}
    {e : Filter.Expr} (hparse : Filter.parse selector = .ok e) :
    countMessages Broker.handle client name (some selector) b = .ok (selected q e) := by
  obtain ⟨filter, htranslate, hfilter⟩ := Selector.parse_toFilter hparse
  have hcount : Broker.handle.countMessages (durableQueueName (some client) name) (some filter) b =
      .ok (selected q e) := countMessages_of_filter hq hfilter
  rw [countMessages, durableQueue_of_get? hclient hname hq]
  change ((Selector.toFilter (some selector)).mapError _ >>= _) = _
  rw [htranslate]
  change (Broker.handle.countMessages _ (some filter) b).mapError _ = _
  rw [hcount]
  rfl

/-- A durable subscription is counted with a selector, with its negation and with its connections to
another one, if both leave room in the allowed nesting for a negation and parentheses; each count is the number
of messages that the expression of the selector selects. The counts with a selector and with its negation add up
to the number of all messages, and the counts with the conjunction and the disjunction of two selectors to
those with each. -/
theorem countMessages_boolean (hclient : client ≠ "") (hname : name ≠ "")
    (hq : b.queues.get? (durableQueueName (some client) name) = some q) {s t : String}
    {e e' : Filter.Expr} {depth depth' : Nat} (hs : Filter.Denotes s e depth)
    (hdepth : depth + 2 ≤ Filter.maxNesting) (ht : Filter.Denotes t e' depth')
    (hdepth' : depth' + 2 ≤ Filter.maxNesting) :
    ∃ total ofS ofT ofNotS ofBoth ofEither : Nat,
      countMessages Broker.handle client name none b = .ok total ∧
      countMessages Broker.handle client name (some s) b = .ok ofS ∧
      countMessages Broker.handle client name (some t) b = .ok ofT ∧
      countMessages Broker.handle client name (some (Filter.negated s)) b = .ok ofNotS ∧
      countMessages Broker.handle client name (some (Filter.Connective.and.joined s t)) b =
        .ok ofBoth ∧
      countMessages Broker.handle client name (some (Filter.Connective.or.joined s t)) b =
        .ok ofEither ∧
      (total = q.messages.length + q.delivering.length ∧ ofS = selected q e ∧ ofT = selected q e' ∧
        ofNotS = selected q (.not e) ∧ ofBoth = selected q (.all [e, e']) ∧
          ofEither = selected q (.any [e, e'])) ∧
      ofS + ofNotS = total ∧ ofBoth + ofEither = ofS + ofT := by
  have hparse : ∀ {text : String} {f : Filter.Expr} {nesting : Nat}, Filter.Denotes text f nesting →
      nesting ≤ Filter.maxNesting → Filter.parse text = .ok f := by
    intro text f nesting hdenotes hnesting
    exact (Filter.parse_eq_ok_iff_denotes text f).mpr ⟨nesting, hnesting, hdenotes⟩
  have hnot := hparse hs.negated hdepth
  have hboth := hparse (hs.joined .and ht) (by omega)
  have heither := hparse (hs.joined .or ht) (by omega)
  have htotal : countMessages Broker.handle client name none b =
      .ok (q.messages.length + q.delivering.length) := by
    rw [countMessages_of_get? hclient hname hq, Broker.messageCount, (b.queue_eq_ok_iff _ q).mpr hq]
    rfl
  exact ⟨_, _, _, _, _, _, htotal, countMessages_of_parse hclient hname hq (hparse hs (by omega)),
    countMessages_of_parse hclient hname hq (hparse ht (by omega)),
    countMessages_of_parse hclient hname hq hnot, countMessages_of_parse hclient hname hq hboth,
    countMessages_of_parse hclient hname hq heither, ⟨rfl, rfl, rfl, rfl, rfl, rfl⟩,
    selected_add_selected_not q e, selected_all_add_selected_any q e e'⟩

/-- A queue in which an urgent message waits and another one is in delivery. -/
def urgentQueue : Queue where
  address := "t"
  options := {}
  messages := [{ (Message.ofBody "text" 0).withPriority 7 with id := 2 }]
  delivering := [{ Message.ofBody "text" 0 with id := 1 }]
  consumers := []

/-- Urgent messages and those of a property are counted in a queue with one message that waits and one in
delivery. -/
theorem countMessages_boolean_urgent :
    let b := Broker.run [.createQueue "t" "c.s" {}, .send "t" (.ofBody "text" 0),
      .send "t" ((Message.ofBody "text" 0).withPriority 7), .receive "c.s"]
    countMessages Broker.handle "c" "s" none b = .ok 2 ∧
      countMessages Broker.handle "c" "s" (some "JMSPriority > 4") b = .ok 1 ∧
      countMessages Broker.handle "c" "s" (some "NOT a IS NULL") b = .ok 0 ∧
      countMessages Broker.handle "c" "s" (some "NOT (JMSPriority > 4)") b = .ok 1 ∧
      countMessages Broker.handle "c" "s" (some "(JMSPriority > 4) AND (NOT a IS NULL)") b = .ok 0 ∧
      countMessages Broker.handle "c" "s" (some "(JMSPriority > 4) OR (NOT a IS NULL)") b = .ok 1 := by
  intro b
  have hq : (Broker.run [.createQueue "t" "c.s" {}, .send "t" (.ofBody "text" 0),
      .send "t" ((Message.ofBody "text" 0).withPriority 7), .receive "c.s"]).queues.get?
        (durableQueueName (some "c") "s") =
      some urgentQueue := by
    unfold urgentQueue
    rfl
  have hs : Filter.Denotes "JMSPriority > 4"
      (.compare "JMSPriority" .gt (.number (.ofInt 4))) 0 :=
    ⟨[.ident "JMSPriority", .comparison .gt, .number (.ofInt 4)], by decide +kernel,
      .single (c := .or) (.single (c := .and) (.compare "JMSPriority" .gt (.number (.ofInt 4))))⟩
  have ht : Filter.Denotes "NOT a IS NULL" (.not (.isNull "a" true)) 1 :=
    ⟨[.not, .ident "a", .is, .null], by decide +kernel,
      .single (c := .or) (.single (c := .and) (.negation (.isNull "a")))⟩
  have hurgent : selected urgentQueue (.compare "JMSPriority" .gt (.number (.ofInt 4))) = 1 := by
    decide +kernel
  have hproperty : selected urgentQueue (.not (.isNull "a" true)) = 0 := by
    decide +kernel
  have hboth : selected urgentQueue (.all [.compare "JMSPriority" .gt (.number (.ofInt 4)),
      .not (.isNull "a" true)]) = 0 := by
    decide +kernel
  obtain ⟨total, ofS, ofT, ofNotS, ofBoth, ofEither, htotal, hofS, hofT, hofNotS, hofBoth, hofEither,
    ⟨heqTotal, heqS, heqT, -, heqBoth, -⟩, hnegation, hconnection⟩ :=
      countMessages_boolean (by decide) (by decide) hq hs (by decide) ht (by decide)
  have htwo : total = 2 := heqTotal
  obtain rfl : ofS = 1 := heqS.trans hurgent
  obtain rfl : ofT = 0 := heqT.trans hproperty
  obtain rfl : ofBoth = 0 := heqBoth.trans hboth
  obtain rfl : ofNotS = 1 := by omega
  obtain rfl : ofEither = 1 := by omega
  exact ⟨htwo ▸ htotal, hofS, hofT, hofNotS, hofBoth, hofEither⟩

end BrokerAdmin.Subscription
