import BrokerAdmin.Bridge.Spec
import BrokerAdmin.Broker.Error

/-!
# Errors of bridge administration

Why a bridge is not deployed or removed.
-/

namespace BrokerAdmin.Bridge

/-- Why an operation on bridges failed. -/
inductive Error where
  /-- The declared bridge breaks a rule. -/
  | configuration (bridge : String) (violation : Violation)
  /-- The broker has not finished starting. -/
  | brokerNotStarted
  /-- The broker refused the bridge. -/
  | deploymentFailed (bridge : String)
  /-- A call to the broker failed. -/
  | broker (cause : Broker.Error)
  deriving DecidableEq

namespace Error

/-- The wording of an error. -/
def message : Error → String
  | configuration bridge violation =>
    "Invalid configuration for bridge '" ++ bridge ++ "': " ++ violation.message
  | brokerNotStarted => "Broker is not started"
  | deploymentFailed bridge => "Failed to deploy bridge '" ++ bridge ++ "'"
  | broker cause => "Broker error: " ++ cause.message

end Error

/-- The definition that a declared bridge stands for, or what is wrong with it. -/
def resolve (o : Overrides) (d : Declared) : Except Error Spec :=
  (d.resolve o).mapError (.configuration d.name)

end BrokerAdmin.Bridge
