import BrokerAdmin.Bridge.Error
import BrokerAdmin.Broker.Handle

/-!
# Deploying and removing bridges

Bridges are resolved before any broker is asked. Every change of bridges is made inside a scope of
storage operations: the pending operations of the caller are cleared before the change, awaited after
it and cleared again, whatever becomes of the change, also when it is given up. A batch goes on after
a bridge that fails.
-/

namespace BrokerAdmin.Bridge

variable {σ : Type}

/-- The answer to an operation on bridges, and the state after it. -/
abbrev Outcome (σ α : Type) := Answer Error α × σ

/-- An operation that was decided without a call that may never complete. -/
def decided {α : Type} (result : Except Error α) (s : σ) : Outcome σ α :=
  (.finished result, s)

/-- Await the pending storage operations and clear them, even if waiting fails. -/
def drain (h : Handle σ) (s : σ) : Except Broker.Error Unit × σ :=
  let (waited, s) := h.awaitPending s
  (waited, h.clearPending s)

/-- Make a change inside a scope of storage operations. A change that is given up is awaited all the
same. The error of the change comes before the error of waiting. -/
def inScope {α β : Type} (h : Handle σ) (change : σ → Answer Broker.Error α × σ)
    (settle : Except Broker.Error α → Except Error β) (s : σ) : Outcome σ β :=
  let (answer, s) := change (h.clearPending s)
  let (waited, s) := drain h s
  (answer.map fun result =>
    match settle result, waited with
    | .ok value, .ok () => .ok value
    | .ok _, .error e => .error (.broker e)
    | .error e, _ => .error e, s)

/-- What the answer to a deployment says: a broker that has a bridge of that name, or refuses the bridge,
has not deployed it. -/
def settleDeployment (name : String) : Except Broker.Error Bool → Except Error Unit
  | .ok true => .ok ()
  | .ok false | .error (.alreadyExists _) => .error (.deploymentFailed name)
  | .error e => .error (.broker e)

/-- What the answer to a removal says: whether there was a bridge to remove. -/
def settleRemoval : Except Broker.Error Unit → Except Error Bool
  | .ok () => .ok true
  | .error (.notFound _) => .ok false
  | .error e => .error (.broker e)

/-- Make a change in a broker that has started. -/
def onceStarted {α : Type} (h : Handle σ) (operation : σ → Outcome σ α) (s : σ) : Outcome σ α :=
  let (started, s) := h.isStarted s
  if started then operation s else decided (.error .brokerNotStarted) s

/-- Deploy a resolved bridge. -/
def deploySpec (h : Handle σ) (spec : Spec) : σ → Outcome σ Unit :=
  onceStarted h (inScope h (h.deployBridge spec) (settleDeployment spec.name))

/-- Remove a bridge and let its messages in flight drain; the answer says whether there was one. -/
def remove (h : Handle σ) (name : String) : σ → Outcome σ Bool :=
  onceStarted h (inScope h (h.destroyBridge name false) settleRemoval)

/-- Go on after an operation that succeeded. -/
def andThen {α β : Type} (outcome : Outcome σ α) (next : α → σ → Outcome σ β) : Outcome σ β :=
  match outcome with
  | (.finished (.ok value), s) => next value s
  | (.finished (.error e), s) => decided (.error e) s
  | (.abandoned, s) => (.abandoned, s)

/-- Resolve a bridge and deploy it. -/
def deploy (h : Handle σ) (o : Overrides) (d : Declared) (s : σ) : Outcome σ Spec :=
  match resolve o d with
  | .error e => decided (.error e) s
  | .ok spec => andThen (deploySpec h spec s) fun _ => decided (.ok spec)

/-- Replace a bridge by the one that is declared now. A bridge that does not resolve leaves the running
one alone. -/
def redeploy (h : Handle σ) (o : Overrides) (d : Declared) (s : σ) : Outcome σ Spec :=
  match resolve o d with
  | .error e => decided (.error e) s
  | .ok spec =>
    andThen (remove h spec.name s) fun _ s =>
      andThen (deploySpec h spec s) fun _ => decided (.ok spec)

/-- Deploy the enabled ones among the declared bridges in their order, with the result of each; nothing
is reported of a batch that was given up. -/
def deployAll (h : Handle σ) (o : Overrides) :
    List Declared → σ → Option (List (String × Except Error Spec)) × σ
  | [], s => (some [], s)
  | d :: rest, s =>
    if d.enabled then
      match deploy h o d s with
      | (.abandoned, s) => (none, s)
      | (.finished result, s) =>
        let (results, s) := deployAll h o rest s
        (results.map ((d.name, result) :: ·), s)
    else deployAll h o rest s

end BrokerAdmin.Bridge
