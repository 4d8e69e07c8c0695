import BrokerAdmin.Proofs.Broker.Run
import BrokerAdmin.Proofs.Outcome

/-!
# Actions that leave queues where they are

Most actions on a broker neither create nor destroy a queue, nor touch the list of an address: they fill
queues with messages that the filters let in, empty them, attach consumers, or change what is no part of
queues and addresses. This is said once, by `Restocks`, and proved of each of them; what every such
action preserves follows from it.
-/

namespace BrokerAdmin

/-- A filter is read as the expression that it denotes. -/
theorem Broker.readFilter_eq_ok_iff (text : String) (e : Filter.Expr) :
    readFilter text = .ok e ↔ Filter.parse text = .ok e :=
  mapError_eq_ok_iff

/-- The filter of a queue can be read, and everything that the queue holds matches it. -/
def Queue.Filtered (q : Queue) : Prop :=
  ∀ text, q.options.filter = some text →
    ∃ e, Filter.parse text = .ok e ∧ ∀ m ∈ q.held, e.accepts m = true

/-- A queue that holds nothing else than before is filtered as before. -/
theorem Queue.Filtered.of_subset {q q' : Queue} (hq : q.Filtered) (hoptions : q'.options = q.options)
    (hheld : ∀ m ∈ q'.held, m ∈ q.held) : q'.Filtered := by
  intro text htext
  rw [hoptions] at htext
  obtain ⟨e, hparse, hall⟩ := hq text htext
  exact ⟨e, hparse, fun m hm => hall m (hheld m hm)⟩

/-- A filtered queue can tell of every message whether it may enter, and stays filtered with those that
may. -/
theorem Queue.Filtered.admits {q : Queue} (hq : q.Filtered) (m : Message) :
    ∃ admitted, q.admits m = .ok admitted ∧
      (admitted = true → ({ q with messages := q.messages ++ [m] } : Queue).Filtered) := by
  cases hfilter : q.options.filter with
  | none =>
    refine ⟨true, by rw [Queue.admits, hfilter], fun _ text htext => ?_⟩
    rw [show q.options.filter = some text from htext] at hfilter
    contradiction
  | some text =>
    obtain ⟨e, hparse, hall⟩ := hq text hfilter
    have hadmits : q.admits m = .ok (e.accepts m) := by
      have hread := (Broker.readFilter_eq_ok_iff text e).mpr hparse
      rw [Queue.admits, hfilter]
      simp only [hread]
      rfl
    refine ⟨e.accepts m, hadmits, fun haccepts text' htext' => ?_⟩
    obtain rfl : text = text' := Option.some.inj (hfilter.symm.trans htext')
    refine ⟨e, hparse, fun other hother => ?_⟩
    simp only [Queue.held, List.append_assoc, List.mem_append, List.mem_singleton] at hother
    rcases hother with hmessages | rfl | hdelivering
    · exact hall other (List.mem_append_left _ hmessages)
    · exact haccepts
    · exact hall other (List.mem_append_right _ hdelivering)

namespace Broker

/-- The queues of a broker, changed one by one: none comes or goes, and each stays bound to its address
and filtered. -/
structure Restocked (before after : Catalog Queue) : Prop where
  stays : ∀ name q, before.get? name = some q →
    ∃ q', after.get? name = some q' ∧ q'.address = q.address ∧ (q.Filtered → q'.Filtered)
  came : ∀ name q', after.get? name = some q' → ∃ q, before.get? name = some q

/-- Queues may stay as they are. -/
theorem Restocked.refl (queues : Catalog Queue) : Restocked queues queues where
  stays _ q hq := ⟨q, hq, rfl, id⟩
  came _ q hq := ⟨q, hq⟩

/-- Queues may be changed several times. -/
theorem Restocked.trans {first second third : Catalog Queue} (h : Restocked first second)
    (h' : Restocked second third) : Restocked first third where
  stays name q hq := by
    obtain ⟨q', hq', haddress, hfiltered⟩ := h.stays name q hq
    obtain ⟨q'', hq'', haddress', hfiltered'⟩ := h'.stays name q' hq'
    exact ⟨q'', hq'', haddress'.trans haddress, hfiltered' ∘ hfiltered⟩
  came name q'' hq'' := by
    obtain ⟨q', hq'⟩ := h'.came name q'' hq''
    exact h.came name q' hq'

/-- A single queue is changed. -/
theorem Restocked.insert {queues : Catalog Queue} {name : String} {q q' : Queue}
    (hq : queues.get? name = some q) (haddress : q'.address = q.address)
    (hfiltered : q.Filtered → q'.Filtered) : Restocked queues (queues.insert name q') where
  stays other r hr := by
    by_cases hother : other = name
    · subst hother
      obtain rfl : q = r := Option.some.inj (hq.symm.trans hr)
      exact ⟨q', by simp, haddress, hfiltered⟩
    · exact ⟨r, by simpa [hother] using hr, rfl, id⟩
  came other r hr := by
    by_cases hother : other = name
    · exact ⟨q, hother ▸ hq⟩
    · exact ⟨r, by simpa [hother] using hr⟩

/-- An action leaves the addresses as they are and every queue where it is. -/
structure Restocks (b b' : Broker) : Prop where
  addresses : b'.addresses = b.addresses
  queues : Restocked b.queues b'.queues

/-- Neither addresses nor queues may change. -/
theorem Restocks.of_eq {b b' : Broker} (haddresses : b'.addresses = b.addresses)
    (hqueues : b'.queues = b.queues) : Restocks b b' :=
  ⟨haddresses, hqueues ▸ .refl b.queues⟩

/-- The record of a queue may be written that holds nothing else than before. -/
theorem Restocks.insert (b : Broker) {name : String} {q q' : Queue} (hq : b.queues.get? name = some q)
    (haddress : q'.address = q.address) (hoptions : q'.options = q.options)
    (hheld : ∀ m ∈ q'.held, m ∈ q.held) :
    Restocks b { b with queues := b.queues.insert name q' } :=
  ⟨rfl, .insert hq haddress fun hfiltered => hfiltered.of_subset hoptions hheld⟩

/-- A queue that is not there does not come with actions that leave queues where they are. -/
theorem Restocks.get?_eq_none {b b' : Broker} (h : Restocks b b') {name : String}
    (hnone : b.queues.get? name = none) : b'.queues.get? name = none := by
  cases hq' : b'.queues.get? name with
  | none => rfl
  | some q' =>
    obtain ⟨q, hq⟩ := h.queues.came name q' hq'
    rw [hnone] at hq
    contradiction

/-! ### The actions -/

/-- Routing fills queues only with what they admit. -/
theorem route_restocked (m : Message) (taken : Bool) (names : List String) (queues : Catalog Queue) :
    Restocked queues (route m taken names queues).2 := by
  induction names generalizing taken queues with
  | nil => exact .refl queues
  | cons name names ih =>
    unfold route
    split
    next => exact ih taken queues
    next q hq =>
      split
      next => exact .refl queues
      next => exact ih taken queues
      next hadmits =>
        split
        next => exact ih taken queues
        next =>
          have hfilled : Restocked queues
              (queues.insert name { q with messages := q.messages ++ [m] }) := by
            refine .insert hq rfl fun hfiltered => ?_
            obtain ⟨admitted, hadmitted, hstays⟩ := hfiltered.admits m
            rw [hadmits] at hadmitted
            exact hstays (Except.ok.inj hadmitted).symm
          exact hfilled.trans (ih _ _)

/-- Sending fills queues. -/
theorem send_restocks (b : Broker) (address : String) (m : Message) :
    Restocks b (b.send address m).2 := by
  unfold send
  split
  next => exact .of_eq rfl rfl
  next => exact ⟨rfl, route_restocked _ _ _ _⟩

/-- A queue that must exist does. -/
theorem queue_eq_ok_iff (b : Broker) (name : String) (q : Queue) :
    b.queue name = .ok q ↔ b.queues.get? name = some q := by
  unfold queue
  cases b.queues.get? name <;> simp

/-- A message on its way is held as before. -/
theorem receive_restocks (b : Broker) (name : String) : Restocks b (b.receive name).2 := by
  unfold receive
  split
  next => exact .of_eq rfl rfl
  next q hq =>
    split
    next => exact .of_eq rfl rfl
    next =>
      split
      next => exact .of_eq rfl rfl
      next m rest hmessages =>
        refine .insert b ((queue_eq_ok_iff b name q).mp hq) rfl rfl fun other hother => ?_
        simp only [Queue.held, hmessages, List.mem_append, List.mem_cons, List.not_mem_nil,
          or_false] at hother ⊢
        rcases hother with hrest | hdelivering | rfl
        · exact Or.inl (Or.inr hrest)
        · exact Or.inr hdelivering
        · exact Or.inl (Or.inl rfl)

/-- An acknowledged message is held no longer. -/
theorem acknowledge_restocks (b : Broker) (name : String) (id : Nat) :
    Restocks b (b.acknowledge name id).2 := by
  unfold acknowledge
  split
  next => exact .of_eq rfl rfl
  next q hq =>
    dsimp only
    split
    next => exact .of_eq rfl rfl
    next =>
      refine .insert b ((queue_eq_ok_iff b name q).mp hq) rfl rfl fun other hother => ?_
      simp only [Queue.held, List.mem_append, List.mem_filter] at hother ⊢
      exact hother.imp_right And.left

/-- A consumer holds no messages of its own. -/
theorem addConsumer_restocks (b : Broker) (name connection session : String) :
    Restocks b (b.addConsumer name connection session).2 := by
  unfold addConsumer
  dsimp only
  split
  next => exact .of_eq rfl rfl
  next q hq =>
    have hrecord := (queue_eq_ok_iff _ name q).mp hq
    exact ⟨rfl, .insert hrecord rfl fun hfiltered => hfiltered.of_subset rfl fun _ hm => hm⟩

/-- Removed messages are held no longer. -/
theorem removeMessages_restocks (b : Broker) (name : String) (filter : Option String) :
    Restocks b (b.removeMessages name filter).2 := by
  unfold removeMessages
  split
  next => exact .of_eq rfl rfl
  next =>
    split
    next => exact .of_eq rfl rfl
    next =>
      split
      next => exact .of_eq rfl rfl
      next q hq =>
        refine .insert b ((queue_eq_ok_iff b name q).mp hq) rfl rfl fun other hother => ?_
        simp only [Queue.held, List.mem_append, List.mem_filter] at hother ⊢
        exact hother.imp_left And.left

/-- Waiting for storage changes no queue. -/
theorem awaitPending_restocks (b : Broker) : Restocks b b.awaitPending.2 := by
  unfold awaitPending
  dsimp only
  split <;> exact .of_eq rfl rfl

/-- A bridge is no part of its queue. -/
theorem deployBridge_restocks (b : Broker) (spec : Bridge.Spec) :
    Restocks b (b.deployBridge spec).2 := by
  unfold deployBridge
  dsimp only
  split <;> exact .of_eq rfl rfl

/-- A bridge goes without its queue. -/
theorem destroyBridge_restocks (b : Broker) (name : String) (force : Bool) :
    Restocks b (b.destroyBridge name force).2 := by
  unfold destroyBridge
  dsimp only
  split <;> exact .of_eq rfl rfl

/-- Whether an action is about addresses: their lists of queues, their placeholders and their pauses. -/
def Action.isAboutAddresses : Action → Bool
  | .createAddress .. | .createTopic .. | .createTopicWithPlaceholder .. | .createQueue ..
  | .destroyQueue .. | .pauseAddress .. | .resumeAddress .. => true
  | _ => false

/-- An action that is not about addresses leaves every queue where it is. -/
theorem restocks_perform (b : Broker) {action : Action} (h : action.isAboutAddresses = false) :
    Restocks b (b.perform action) := by
  cases action with
  | createAddress | createTopic | createTopicWithPlaceholder | createQueue | destroyQueue | pauseAddress
  | resumeAddress => contradiction
  | send address m => exact b.send_restocks address m
  | receive name => exact b.receive_restocks name
  | acknowledge name id => exact b.acknowledge_restocks name id
  | addConsumer name connection session => exact b.addConsumer_restocks name connection session
  | removeMessages name filter => exact b.removeMessages_restocks name filter
  | awaitPending => exact b.awaitPending_restocks
  | deployBridge spec => exact b.deployBridge_restocks spec
  | destroyBridge name force => exact b.destroyBridge_restocks name force
  | isStarted | clearPending | clearJournal | setStarted | refuseBridges | failStorage
  | failRemovals => exact .of_eq rfl rfl

/-- Pausing an address leaves the queues as they are. -/
theorem queues_pauseAddress (b : Broker) (address : String) (persist : Bool) :
    (b.pauseAddress address persist).2.queues = b.queues := by
  unfold pauseAddress
  dsimp only
  split <;> rfl

/-- Letting delivery go on leaves the queues as they are. -/
theorem queues_resumeAddress (b : Broker) (address : String) :
    (b.resumeAddress address).2.queues = b.queues := by
  unfold resumeAddress
  dsimp only
  split <;> rfl

end Broker

end BrokerAdmin
