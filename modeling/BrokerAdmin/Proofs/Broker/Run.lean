import BrokerAdmin.Broker.Control
import BrokerAdmin.Broker.Messaging

/-!
# Runs of a broker

Everything that can be done to a broker in memory, whoever does it: messaging, administration, and the
failures that can be arranged. A run starts with a broker without addresses and goes from one broker to
the next whatever the answers are. A broker is reachable when a run leads to it.

Calls that only ask are not among the actions, since they leave no other broker behind.
-/

namespace BrokerAdmin.Broker

/-- Something that is done to a broker. -/
inductive Action where
  | createAddress (address : String)
  | createTopic (address : String)
  | createTopicWithPlaceholder (address placeholder : String)
  | createQueue (address name : String) (options : QueueOptions)
  | send (address : String) (message : Message)
  | receive (name : String)
  | acknowledge (name : String) (id : Nat)
  | addConsumer (name connection session : String)
  | isStarted
  | clearPending
  | awaitPending
  | deployBridge (spec : Bridge.Spec)
  | destroyBridge (name : String) (force : Bool)
  | destroyQueue (name : String) (removeConsumers : Bool)
  | pauseAddress (address : String) (persist : Bool)
  | resumeAddress (address : String)
  | removeMessages (name : String) (filter : Option String)
  | clearJournal
  | setStarted (started : Bool)
  | refuseBridges (refuse : Bool)
  | failStorage (reason : Option String)
  | failRemovals (name : String)

/-- The broker after an action, whether the action succeeds or fails. -/
def perform (b : Broker) : Action → Broker
  | .createAddress address => (b.createAddress address).2
  | .createTopic address => (b.createTopic address).2
  | .createTopicWithPlaceholder address placeholder =>
    (b.createTopicWithPlaceholder address placeholder).2
  | .createQueue address name options => (b.createQueue address name options).2
  | .send address message => (b.send address message).2
  | .receive name => (b.receive name).2
  | .acknowledge name id => (b.acknowledge name id).2
  | .addConsumer name connection session => (b.addConsumer name connection session).2
  | .isStarted => b.isStarted.2
  | .clearPending => b.clearPending
  | .awaitPending => b.awaitPending.2
  | .deployBridge spec => (b.deployBridge spec).2
  | .destroyBridge name force => (b.destroyBridge name force).2
  | .destroyQueue name removeConsumers => (b.destroyQueue name removeConsumers).2
  | .pauseAddress address persist => (b.pauseAddress address persist).2
  | .resumeAddress address => (b.resumeAddress address).2
  | .removeMessages name filter => (b.removeMessages name filter).2
  | .clearJournal => b.clearJournal
  | .setStarted started => { b with started := started }
  | .refuseBridges refuse => { b with refusesBridges := refuse }
  | .failStorage reason => { b with storageFailure := reason }
  | .failRemovals name => { b with failingRemovals := name :: b.failingRemovals }

/-- The broker after several actions, one after the other. -/
def performAll (b : Broker) (actions : List Action) : Broker :=
  actions.foldl perform b

/-- The broker that a run leads to. -/
def run (actions : List Action) : Broker :=
  start.performAll actions

/-- Whether a broker can come about. -/
def Reachable (b : Broker) : Prop :=
  ∃ actions, run actions = b

/-- What is noted of each of several actions, in the state in which it is taken. -/
def collect {α : Type} (note : Broker → Action → List α) (b : Broker) : List Action → List α
  | [] => []
  | action :: actions => note b action ++ collect note (b.perform action) actions

/-- What each of several actions preserves is preserved by all of them. -/
theorem performAll_induction {motive : Broker → Prop} {actions : List Action}
    (step : ∀ action ∈ actions, ∀ b, motive b → motive (b.perform action)) {b : Broker}
    (hb : motive b) : motive (b.performAll actions) := by
  induction actions generalizing b with
  | nil => exact hb
  | cons action actions ih =>
    obtain ⟨haction, hactions⟩ := List.forall_mem_cons.mp step
    apply ih hactions
    exact haction b hb

/-- What holds of a broker without addresses and is preserved by each action holds of every reachable
broker. -/
theorem Reachable.induction {motive : Broker → Prop} (init : motive start)
    (step : ∀ action b, motive b → motive (b.perform action)) {b : Broker} (hb : b.Reachable) :
    motive b := by
  obtain ⟨actions, rfl⟩ := hb
  exact performAll_induction (fun action _ => step action) init

/-- The last action of a run is taken on the broker that the others lead to. -/
theorem run_concat (actions : List Action) (action : Action) :
    run (actions ++ [action]) = (run actions).perform action := by
  simp [run, performAll]

/-- An action leads from a reachable broker to another. -/
theorem Reachable.perform {b : Broker} (hb : b.Reachable) (action : Action) :
    (b.perform action).Reachable := by
  obtain ⟨actions, rfl⟩ := hb
  exact ⟨actions ++ [action], run_concat actions action⟩

/-- Several actions lead from a reachable broker to another. -/
theorem Reachable.performAll {b : Broker} (hb : b.Reachable) (actions : List Action) :
    (b.performAll actions).Reachable :=
  performAll_induction (fun action _ _ h => h.perform action) hb

end BrokerAdmin.Broker
