import BrokerAdmin.Binary64.Basic

/-!
# Declared bridges

A bridge as a configuration declares it. Durations are milliseconds. Numbers are signed, so that bad
values reach the rules of resolution; `-1` stands for unlimited or disabled where the broker allows it.
-/

namespace BrokerAdmin.Bridge

/-- An entry of a credential store. -/
structure CredentialReference where
  store : String
  entry : String
  deriving DecidableEq

/-- A bridge as declared; everything but its name and its queue has a default. -/
structure Declared where
  name : String
  queueName : String
  /-- The remote address; without one the message keeps its own. -/
  forwardingAddress : Option String := none
  filter : Option String := none
  transformerClassName : Option String := none
  discoveryGroup : Option String := none
  staticConnectors : Option (List String) := none
  minLargeMessageSize : Int64 := 102400
  checkPeriod : Int64 := 30000
  connectionTtl : Int64 := 60000
  retryInterval : Int64 := 2000
  retryIntervalMultiplier : Binary64 := Binary64.one
  maxRetryInterval : Int64 := 2000
  initialConnectAttempts : Int64 := -1
  reconnectAttempts : Int64 := -1
  reconnectAttemptsOnSameNode : Int64 := 10
  useDuplicateDetection : Bool := true
  confirmationWindowSize : Int64 := 10485760
  producerWindowSize : Int64 := 1048576
  ha : Bool := false
  user : Option String := none
  password : Option String := none
  credentialReference : Option CredentialReference := none
  callTimeout : Int64 := 30000
  routingType : String := "PASS"
  enabled : Bool := true
  deriving DecidableEq

namespace Declared

/-- The bridge that is declared by nothing. -/
def unnamed : Declared := { name := "default", queueName := "" }

/-- A bridge from a queue to fixed connectors, with the defaults for everything else. -/
def withConnectors (name queueName : String) (connectors : List String) : Declared :=
  { name, queueName, staticConnectors := some connectors }

/-- A bridge from a queue to the members of a discovery group, with the defaults for everything else. -/
def withDiscoveryGroup (name queueName group : String) : Declared :=
  { name, queueName, discoveryGroup := some group }

end Declared

end BrokerAdmin.Bridge
