import BrokerAdmin.Bridge.Manager
import Mathlib.Data.List.Forall2

/-!
# The calls that bridge administration makes

Whatever a broker answers, its bridges are changed in attempts. An attempt asks whether the broker has
started. If not, it ends there. Otherwise it clears the pending storage operations, makes one change,
awaits the storage operations of the change and clears them again, also when the change or the wait fails
and when the change is given up.

A handle that records shows the calls in their order. The calls that can change a broker are recorded;
questions leave no trace, and administration of bridges asks none but whether the broker has started.
-/

namespace BrokerAdmin

variable {σ : Type}

/-- A call that can change a broker. -/
inductive Handle.Event where
  | isStarted (answer : Bool)
  | clearPending
  | awaitPending
  | deployBridge (spec : Bridge.Spec)
  | destroyBridge (name : String) (force : Bool)
  | destroyQueue (name : String) (removeConsumers : Bool)
  | pauseAddress (address : String) (persist : Bool)
  | resumeAddress (address : String)
  | removeMessages (name : String) (filter : Option String)
  deriving DecidableEq

/-- An answer and the state after it, with the calls before it and its own. -/
def Handle.note {α : Type} (event : Event) (trace : List Event) (outcome : α × σ) : α × σ × List Event :=
  (outcome.1, outcome.2, trace ++ [event])

open Handle in
/-- A handle that does what another does and records the calls. -/
def Handle.recording (h : Handle σ) : Handle (σ × List Event) where
  isStarted s := note (.isStarted (h.isStarted s.1).1) s.2 (h.isStarted s.1)
  clearPending s := (h.clearPending s.1, s.2 ++ [.clearPending])
  awaitPending s := note .awaitPending s.2 (h.awaitPending s.1)
  deployBridge spec s := note (.deployBridge spec) s.2 (h.deployBridge spec s.1)
  destroyBridge name force s := note (.destroyBridge name force) s.2 (h.destroyBridge name force s.1)
  destroyQueue name removeConsumers s :=
    note (.destroyQueue name removeConsumers) s.2 (h.destroyQueue name removeConsumers s.1)
  queueNames address s := h.queueNames address s.1
  queueControl name s := h.queueControl name s.1
  addressControl address s := h.addressControl address s.1
  pauseAddress address persist s :=
    note (.pauseAddress address persist) s.2 (h.pauseAddress address persist s.1)
  resumeAddress address s := note (.resumeAddress address) s.2 (h.resumeAddress address s.1)
  messageCount name s := h.messageCount name s.1
  deliveringCount name s := h.deliveringCount name s.1
  consumersText name s := h.consumersText name s.1
  countMessages name filter s := h.countMessages name filter s.1
  removeMessages name filter s := note (.removeMessages name filter) s.2 (h.removeMessages name filter s.1)
  listMessages name filter s := h.listMessages name filter s.1

namespace Bridge

open Handle (Event)

/-! ### Attempts -/

/-- A change of the bridges of a broker. -/
inductive Change where
  | deploy (spec : Spec)
  | destroy (name : String)
  deriving DecidableEq

/-- The call that makes a change. A bridge that is destroyed may deliver its messages in flight first. -/
def Change.event : Change → Event
  | deploy spec => .deployBridge spec
  | destroy name => .destroyBridge name false

/-- An attempt at a change of a broker that has started or not. -/
structure Attempt where
  change : Change
  started : Bool
  deriving DecidableEq

/-- The calls of an attempt. -/
def Attempt.events (a : Attempt) : List Event :=
  match a.started with
  | true => [.isStarted true, .clearPending, a.change.event, .awaitPending, .clearPending]
  | false => [.isStarted false]

/-- The calls before an operation and those of its attempts. -/
def noted {α : Type} (outcome : α × σ) (trace : List Event) (attempts : List Attempt) :
    α × σ × List Event :=
  (outcome.1, outcome.2, trace ++ attempts.flatMap Attempt.events)

variable {α β : Type}

/-- A change in a scope is recorded between the calls that open and close the scope. -/
theorem inScope_recording (h : Handle σ) {change : σ → Answer Broker.Error α × σ}
    {recorded : σ × List Event → Answer Broker.Error α × σ × List Event} {event : Event}
    (hchange : ∀ s trace, recorded (s, trace) = Handle.note event trace (change s))
    (settle : Except Broker.Error α → Except Error β) (s : σ) (trace : List Event) :
    inScope h.recording recorded settle (s, trace) =
      ((inScope h change settle s).1, (inScope h change settle s).2,
        trace ++ [.clearPending, event, .awaitPending, .clearPending]) := by
  have hclear : h.recording.clearPending (s, trace) = (h.clearPending s, trace ++ [.clearPending]) := rfl
  unfold inScope
  rw [hclear, hchange]
  simp [Handle.note, drain, Handle.recording]

/-- An operation on a broker that has started is recorded as an attempt. -/
theorem onceStarted_recording (h : Handle σ) (change : Change) {operation : σ → Outcome σ α}
    {recorded : σ × List Event → Outcome (σ × List Event) α}
    (hoperation : ∀ s trace, recorded (s, trace) = ((operation s).1, (operation s).2,
      trace ++ [.clearPending, change.event, .awaitPending, .clearPending]))
    (s : σ) (trace : List Event) :
    onceStarted h.recording recorded (s, trace) =
      noted (onceStarted h operation s) trace [⟨change, (h.isStarted s).1⟩] := by
  have hask : h.recording.isStarted (s, trace) =
      Handle.note (.isStarted (h.isStarted s).1) trace (h.isStarted s) := rfl
  unfold onceStarted
  rw [hask, Handle.note]
  rcases h.isStarted s with ⟨started, after⟩
  cases started with
  | false => simp [noted, Attempt.events, decided]
  | true => simp [noted, Attempt.events, hoperation]

/-- The deployment of a resolved bridge is one attempt. -/
theorem deploySpec_recording (h : Handle σ) (spec : Spec) (s : σ) (trace : List Event) :
    deploySpec h.recording spec (s, trace) =
      noted (deploySpec h spec s) trace [⟨.deploy spec, (h.isStarted s).1⟩] := by
  apply onceStarted_recording h (.deploy spec)
  apply inScope_recording
  intro s trace
  rfl

/-- A removal is one attempt. -/
theorem remove_recording (h : Handle σ) (name : String) (s : σ) (trace : List Event) :
    remove h.recording name (s, trace) =
      noted (remove h name s) trace [⟨.destroy name, (h.isStarted s).1⟩] := by
  apply onceStarted_recording h (.destroy name)
  apply inScope_recording
  intro s trace
  rfl

example : (remove Broker.handle.recording "a" (Broker.start, [])).2.2 =
    [.isStarted true, .clearPending, .destroyBridge "a" false, .awaitPending, .clearPending] := rfl

/-- What goes on after a recorded operation is recorded after it, if it goes on. -/
theorem andThen_noted (outcome : Outcome σ α) (next : α → σ → Outcome σ β)
    (recorded : α → σ × List Event → Outcome (σ × List Event) β) {P : List Attempt → Prop}
    (hnext : ∀ value s trace, ∃ later, recorded value (s, trace) = noted (next value s) trace later ∧
      P later)
    (trace : List Event) (attempts : List Attempt) :
    ∃ later, andThen (noted outcome trace attempts) recorded =
        noted (andThen outcome next) trace (attempts ++ later) ∧ (later = [] ∨ P later) := by
  rcases outcome with ⟨⟨e | value⟩ | _, s⟩
  · exact ⟨[], by simp [noted, andThen, decided], Or.inl rfl⟩
  · obtain ⟨later, hrecorded, hlater⟩ := hnext value s (trace ++ attempts.flatMap Attempt.events)
    refine ⟨later, ?_, Or.inr hlater⟩
    change recorded value (s, trace ++ attempts.flatMap Attempt.events) = _
    rw [hrecorded]
    simp [noted, andThen]
  · exact ⟨[], by simp [noted, andThen], Or.inl rfl⟩

/-- What is decided without a call is recorded as no attempt. -/
theorem decided_noted (result : Except Error α) (s : σ) (trace : List Event) :
    decided result (s, trace) = noted (decided result s) trace [] := by
  simp [decided, noted]

/-- The deployment of a resolved bridge that is answered with the bridge is one attempt, too. -/
theorem andThen_deploySpec_recording (h : Handle σ) (spec : Spec) (s : σ) (trace : List Event) :
    (andThen (deploySpec h.recording spec (s, trace)) fun _ => decided (.ok spec)) =
      noted (andThen (deploySpec h spec s) fun _ => decided (.ok spec)) trace
        [⟨.deploy spec, (h.isStarted s).1⟩] := by
  obtain ⟨later, hrecorded, hlater⟩ := andThen_noted (P := (· = [])) (deploySpec h spec s)
    (fun _ => decided (.ok spec)) (fun _ => decided (.ok spec))
    (fun _ s trace => ⟨[], decided_noted (.ok spec) s trace, rfl⟩) trace
    [⟨.deploy spec, (h.isStarted s).1⟩]
  obtain rfl : later = [] := hlater.elim id id
  rw [deploySpec_recording, hrecorded]
  rfl

/-! ### Commands -/

/-- The changes that attempts begin with, at least with the first one. -/
structure Begins (attempts : List Attempt) (changes : List Change) : Prop where
  ordered : attempts.map Attempt.change <+: changes
  attempted : changes ≠ [] → attempts ≠ []

/-- Attempts at all of some changes begin with them. -/
theorem begins_of_map_eq {attempts : List Attempt} {changes : List Change}
    (h : attempts.map Attempt.change = changes) : Begins attempts changes where
  ordered := h ▸ List.prefix_rfl
  attempted hne hnone := hne (by rw [← h, hnone, List.map_nil])

/-- The deployment of a declared bridge; there is none if it does not resolve. -/
def deployment (o : Overrides) (d : Declared) : List Change :=
  match resolve o d with
  | .ok spec => [.deploy spec]
  | .error _ => []

/-- A declared bridge that does not resolve is not deployed. -/
theorem deployment_eq_nil_iff (o : Overrides) (d : Declared) :
    deployment o d = [] ↔ ∃ e, resolve o d = .error e := by
  unfold deployment
  cases resolve o d <;> simp

/-- The changes that replace a bridge by the declared one; there are none if that does not resolve. -/
def replacement (o : Overrides) (d : Declared) : List Change :=
  match resolve o d with
  | .ok spec => [.destroy spec.name, .deploy spec]
  | .error _ => []

/-- Resolving and deploying a bridge is an attempt if the bridge resolves. -/
theorem deploy_recording (h : Handle σ) (o : Overrides) (d : Declared) (s : σ) (trace : List Event) :
    ∃ attempts, deploy h.recording o d (s, trace) = noted (deploy h o d s) trace attempts ∧
      attempts.map Attempt.change = deployment o d := by
  unfold deploy deployment
  cases resolve o d with
  | error e => exact ⟨[], decided_noted _ s trace, rfl⟩
  | ok spec => exact ⟨_, andThen_deploySpec_recording h spec s trace, rfl⟩

/-- Replacing a bridge begins with the removal of the one that is there, if the declared one resolves. -/
theorem redeploy_recording (h : Handle σ) (o : Overrides) (d : Declared) (s : σ) (trace : List Event) :
    ∃ attempts, redeploy h.recording o d (s, trace) = noted (redeploy h o d s) trace attempts ∧
      Begins attempts (replacement o d) := by
  unfold redeploy replacement
  cases resolve o d with
  | error e => exact ⟨[], decided_noted _ s trace, begins_of_map_eq rfl⟩
  | ok spec =>
    dsimp only
    rw [remove_recording]
    obtain ⟨later, hrecorded, hlater⟩ :=
      andThen_noted (P := fun later => later.map Attempt.change = [.deploy spec])
        (remove h spec.name s)
        (fun _ s => andThen (deploySpec h spec s) fun _ => decided (.ok spec))
        (fun _ s => andThen (deploySpec h.recording spec s) fun _ => decided (.ok spec))
        (fun _ s trace => ⟨_, andThen_deploySpec_recording h spec s trace, rfl⟩) trace
        [⟨.destroy spec.name, (h.isStarted s).1⟩]
    refine ⟨_, hrecorded, ?_, nofun⟩
    rcases hlater with rfl | hlater
    · exact ⟨[.deploy spec], rfl⟩
    · rw [List.map_append, hlater]
      exact List.prefix_rfl

/-- What is wrong with a bridge is told without a call. -/
theorem deploy_of_error (h : Handle σ) {o : Overrides} {d : Declared} {e : Error}
    (hresolves : resolve o d = .error e) (s : σ) : deploy h o d s = decided (.error e) s := by
  rw [deploy, hresolves]

/-- A batch makes the attempts of its enabled bridges, and no more once it is given up. -/
theorem deployAll_recording (h : Handle σ) (o : Overrides) (ds : List Declared) (s : σ)
    (trace : List Event) :
    ∃ attempts, deployAll h.recording o ds (s, trace) = noted (deployAll h o ds s) trace attempts ∧
      Begins attempts ((ds.filter Declared.enabled).flatMap (deployment o)) := by
  induction ds generalizing s trace with
  | nil => exact ⟨[], by simp [deployAll, noted], begins_of_map_eq rfl⟩
  | cons d rest ih =>
    unfold deployAll
    cases henabled : d.enabled with
    | false => simpa [henabled] using ih s trace
    | true =>
      obtain ⟨attempts, hrecorded, hchanges⟩ := deploy_recording h o d s trace
      simp only [if_true]
      rw [hrecorded, List.filter_cons_of_pos henabled, List.flatMap_cons, ← hchanges]
      rcases hdeploy : deploy h o d s with ⟨result | _, after⟩
      · obtain ⟨later, hlater, hbegins⟩ := ih after (trace ++ attempts.flatMap Attempt.events)
        refine ⟨attempts ++ later, ?_, ?_, fun hne hnone => ?_⟩
        · simp [noted, hlater]
        · rw [List.map_append]
          exact (List.prefix_append_right_inj _).mpr hbegins.ordered
        · obtain ⟨rfl, rfl⟩ := List.append_eq_nil_iff.mp hnone
          exact hbegins.attempted hne rfl
      -- a bridge that does not resolve is not given up
      · refine ⟨attempts, by simp [noted], List.prefix_append _ _, fun _ hnone => ?_⟩
        rw [hnone] at hchanges
        obtain ⟨e, hresolves⟩ := (deployment_eq_nil_iff o d).mp hchanges.symm
        rw [deploy_of_error h hresolves] at hdeploy
        cases hdeploy

/-- Something that is asked of the administration of bridges. -/
inductive Command where
  | deploy (d : Declared)
  | deploySpec (spec : Spec)
  | remove (name : String)
  | redeploy (d : Declared)
  | deployAll (ds : List Declared)

/-- The changes that a command leads to as long as none of them fails. -/
def Command.changes (o : Overrides) : Command → List Change
  | deploy d => deployment o d
  | deploySpec spec => [.deploy spec]
  | remove name => [.destroy name]
  | redeploy d => replacement o d
  | deployAll ds => (ds.filter Declared.enabled).flatMap (deployment o)

/-- The state after a command, whatever the answer to it is. -/
def carryOut (h : Handle σ) (o : Overrides) (s : σ) : Command → σ
  | .deploy d => (deploy h o d s).2
  | .deploySpec spec => (deploySpec h spec s).2
  | .remove name => (remove h name s).2
  | .redeploy d => (redeploy h o d s).2
  | .deployAll ds => (deployAll h o ds s).2

/-- The state after several commands, one after the other. -/
def carryOutAll (h : Handle σ) (o : Overrides) (s : σ) (commands : List Command) : σ :=
  commands.foldl (carryOut h o) s

/-- A command makes attempts at its changes, or at those with which they begin. -/
theorem carryOut_recording (h : Handle σ) (o : Overrides) (s : σ) (trace : List Event)
    (command : Command) :
    ∃ attempts, carryOut h.recording o (s, trace) command =
        (carryOut h o s command, trace ++ attempts.flatMap Attempt.events) ∧
      Begins attempts (command.changes o) := by
  cases command with
  | deploy d =>
    obtain ⟨attempts, hrecorded, hchanges⟩ := deploy_recording h o d s trace
    exact ⟨attempts, congrArg Prod.snd hrecorded, begins_of_map_eq hchanges⟩
  | deploySpec spec =>
    have hrecorded := congrArg Prod.snd (deploySpec_recording h spec s trace)
    exact ⟨_, hrecorded, begins_of_map_eq rfl⟩
  | remove name =>
    have hrecorded := congrArg Prod.snd (remove_recording h name s trace)
    exact ⟨_, hrecorded, begins_of_map_eq rfl⟩
  | redeploy d =>
    obtain ⟨attempts, hrecorded, hbegins⟩ := redeploy_recording h o d s trace
    exact ⟨attempts, congrArg Prod.snd hrecorded, hbegins⟩
  | deployAll ds =>
    obtain ⟨attempts, hrecorded, hbegins⟩ := deployAll_recording h o ds s trace
    exact ⟨attempts, congrArg Prod.snd hrecorded, hbegins⟩

/-- Several commands make attempts one command after the other. -/
theorem carryOutAll_recording (h : Handle σ) (o : Overrides) (s : σ) (trace : List Event)
    (commands : List Command) :
    ∃ attempts : List (List Attempt),
      carryOutAll h.recording o (s, trace) commands =
        (carryOutAll h o s commands, trace ++ attempts.flatten.flatMap Attempt.events) ∧
      List.Forall₂ (fun command made => Begins made (command.changes o)) commands attempts := by
  induction commands generalizing s trace with
  | nil => exact ⟨[], by simp [carryOutAll], .nil⟩
  | cons command commands ih =>
    obtain ⟨made, hfirst, hbegins⟩ := carryOut_recording h o s trace command
    obtain ⟨attempts, hrest, hall⟩ :=
      ih (carryOut h o s command) (trace ++ made.flatMap Attempt.events)
    refine ⟨made :: attempts, ?_, .cons hbegins hall⟩
    change carryOutAll h.recording o (carryOut h.recording o (s, trace) command) commands = _
    rw [hfirst, hrest]
    simp [carryOutAll]

/-! ### Bridges that do not resolve -/

/-- The state after a batch that begins with an enabled bridge. -/
theorem deployAll_cons_state (h : Handle σ) (o : Overrides) {d : Declared} (henabled : d.enabled = true)
    (rest : List Declared) (s : σ) :
    (deployAll h o (d :: rest) s).2 =
      match deploy h o d s with
      | (.abandoned, after) => after
      | (.finished _, after) => (deployAll h o rest after).2 := by
  rw [deployAll, if_pos henabled]
  rcases deploy h o d s with ⟨_ | _, after⟩ <;> rfl

/-- A batch leads to the same state without a bridge that does not resolve. -/
theorem deployAll_state_without (h : Handle σ) {o : Overrides} {d : Declared} {e : Error}
    (hresolves : resolve o d = .error e) (before after : List Declared) (s : σ) :
    (deployAll h o (before ++ d :: after) s).2 = (deployAll h o (before ++ after) s).2 := by
  induction before generalizing s with
  | nil =>
    change (deployAll h o (d :: after) s).2 = (deployAll h o after s).2
    cases henabled : d.enabled with
    | false => rw [deployAll, henabled, if_neg Bool.false_ne_true]
    | true =>
      rw [deployAll_cons_state h o henabled, deploy_of_error h hresolves]
      rfl
  | cons first before ih =>
    change (deployAll h o (first :: (before ++ d :: after)) s).2 =
      (deployAll h o (first :: (before ++ after)) s).2
    cases henabled : first.enabled with
    | false =>
      rw [deployAll, deployAll, henabled, if_neg Bool.false_ne_true, if_neg Bool.false_ne_true]
      exact ih s
    | true =>
      rw [deployAll_cons_state h o henabled, deployAll_cons_state h o henabled]
      rcases deploy h o first s with ⟨_ | _, next⟩
      · exact ih next
      · rfl

/-! ### What is asked of a broker -/

/-- Two handles with the same calls about bridges and storage; all their other calls may differ. -/
structure AgreeOnBridges (h h' : Handle σ) : Prop where
  isStarted : h'.isStarted = h.isStarted
  clearPending : h'.clearPending = h.clearPending
  awaitPending : h'.awaitPending = h.awaitPending
  deployBridge : h'.deployBridge = h.deployBridge
  destroyBridge : h'.destroyBridge = h.destroyBridge

variable {h h' : Handle σ}

/-- A resolved bridge is deployed by the calls about bridges alone. -/
theorem AgreeOnBridges.deploySpec (hagree : AgreeOnBridges h h') (spec : Spec) :
    deploySpec h' spec = deploySpec h spec := by
  funext s
  simp only [Bridge.deploySpec, onceStarted, inScope, drain, hagree.isStarted, hagree.clearPending,
    hagree.awaitPending, hagree.deployBridge]

/-- A bridge is removed by the calls about bridges alone. -/
theorem AgreeOnBridges.remove (hagree : AgreeOnBridges h h') (name : String) :
    remove h' name = remove h name := by
  funext s
  simp only [Bridge.remove, onceStarted, inScope, drain, hagree.isStarted, hagree.clearPending,
    hagree.awaitPending, hagree.destroyBridge]

/-- A declared bridge is deployed by the calls about bridges alone. -/
theorem AgreeOnBridges.deploy (hagree : AgreeOnBridges h h') (o : Overrides) (d : Declared) :
    deploy h' o d = deploy h o d := by
  funext s
  simp only [Bridge.deploy, hagree.deploySpec]

/-- A batch is deployed by the calls about bridges alone. -/
theorem AgreeOnBridges.deployAll (hagree : AgreeOnBridges h h') (o : Overrides) (ds : List Declared) :
    deployAll h' o ds = deployAll h o ds := by
  induction ds with
  | nil => rfl
  | cons d rest ih =>
    funext s
    simp only [Bridge.deployAll, hagree.deploy, ih]

/-- A command is carried out by the calls about bridges alone. -/
theorem AgreeOnBridges.carryOut (hagree : AgreeOnBridges h h') (o : Overrides) (s : σ)
    (command : Command) : carryOut h' o s command = carryOut h o s command := by
  cases command with
  | deploy d => simp only [Bridge.carryOut, hagree.deploy]
  | deploySpec spec => simp only [Bridge.carryOut, hagree.deploySpec]
  | remove name => simp only [Bridge.carryOut, hagree.remove]
  | redeploy d => simp only [Bridge.carryOut, redeploy, hagree.remove, hagree.deploySpec]
  | deployAll ds => simp only [Bridge.carryOut, hagree.deployAll]

/-- Whatever a broker answers and whatever is asked of the administration of its bridges, the calls to the
broker are those of attempts. For each command these are attempts at the changes that it leads to, or at
those with which these begin. A declared bridge that does not resolve leads to none, neither alone nor in
a batch. No other question to the broker matters. -/
theorem carryOutAll_in_scopes (h : Handle σ) (o : Overrides) (commands : List Command) (s : σ) :
    (∃ attempts : List (List Attempt),
      carryOutAll h.recording o (s, []) commands =
        (carryOutAll h o s commands, attempts.flatten.flatMap Attempt.events) ∧
      List.Forall₂ (fun command made => Begins made (command.changes o)) commands attempts) ∧
    (∀ d e, resolve o d = .error e → ∀ s : σ × List Event,
      carryOut h.recording o s (.deploy d) = s ∧ carryOut h.recording o s (.redeploy d) = s ∧
        ∀ before after, carryOut h.recording o s (.deployAll (before ++ d :: after)) =
          carryOut h.recording o s (.deployAll (before ++ after))) ∧
    ∀ h', AgreeOnBridges h h' → carryOutAll h' o s commands = carryOutAll h o s commands := by
  refine ⟨carryOutAll_recording h o s [] commands, fun d e hresolves s => ⟨?_, ?_, ?_⟩, ?_⟩
  · rw [carryOut, deploy_of_error _ hresolves]
    rfl
  · rw [carryOut, redeploy, hresolves]
    rfl
  · intro before after
    exact deployAll_state_without h.recording hresolves before after s
  · intro h' hagree
    have hcarryOut : carryOut h' o = carryOut h o := by
      funext s command
      exact hagree.carryOut o s command
    rw [carryOutAll, carryOutAll, hcarryOut]

/-- A bridge without a queue is not even begun to be deployed, and the queues that a broker reports do not
matter. -/
theorem carryOutAll_in_scopes_without_queue :
    (resolve {} .unnamed = .error (.configuration "default" .blankQueueName) ∧
      carryOut Broker.handle.recording {} (Broker.start, []) (.deploy .unnamed) = (Broker.start, [])) ∧
    AgreeOnBridges Broker.handle { Broker.handle with queueNames := fun _ _ => .ok [] } ∧
      carryOutAll { Broker.handle with queueNames := fun _ _ => .ok [] } {} Broker.start
          [.remove "a", .deploy .unnamed] =
        carryOutAll Broker.handle {} Broker.start [.remove "a", .deploy .unnamed] := by
  have hresolves : resolve {} .unnamed = .error (.configuration "default" .blankQueueName) := rfl
  have hagree : AgreeOnBridges Broker.handle { Broker.handle with queueNames := fun _ _ => .ok [] } :=
    ⟨rfl, rfl, rfl, rfl, rfl⟩
  obtain ⟨-, hunresolved, hother⟩ :=
    carryOutAll_in_scopes Broker.handle {} [.remove "a", .deploy .unnamed] Broker.start
  exact ⟨⟨hresolves, (hunresolved _ _ hresolves (Broker.start, [])).1⟩, hagree, hother _ hagree⟩

end Bridge

end BrokerAdmin
