import BrokerAdmin.Binary64.Written
import BrokerAdmin.Bridge.Declared
import BrokerAdmin.Bridge.Overrides
import BrokerAdmin.Bridge.Retry
import BrokerAdmin.Bridge.RoutingType
import BrokerAdmin.Text.Numeral

/-!
# Resolved bridges

Resolution turns a declared bridge and the overrides into a definition that a broker can take, or into
the first rule that is broken. The rules are checked in a fixed order, before any broker is
asked.
-/

namespace BrokerAdmin.Bridge

/-- How a bridge finds the remote side. -/
inductive Connectors where
  | discoveryGroup (name : String)
  | fixed (names : List String)
  deriving DecidableEq

/-- Where the password of a bridge comes from. -/
inductive PasswordSource where
  | clear (password : String)
  | reference (entry : CredentialReference)
  deriving DecidableEq

/-- Credentials for the remote side. -/
structure Credentials where
  user : Option String
  password : Option PasswordSource
  deriving DecidableEq

/-- A bridge that a broker can deploy. Durations are milliseconds; a missing one is disabled. -/
structure Spec where
  name : String
  queueName : String
  forwardingAddress : Option String
  filter : Option String
  transformerClassName : Option String
  connectors : Connectors
  retry : RetryPolicy
  minLargeMessageSize : Nat
  checkPeriod : Option Nat
  connectionTtl : Option Nat
  useDuplicateDetection : Bool
  confirmationWindowSize : Option Nat
  producerWindowSize : Option Nat
  ha : Bool
  credentials : Option Credentials
  callTimeout : Nat
  routingType : RoutingType
  deriving DecidableEq

/-- A rule that a declared bridge breaks. -/
inductive Violation where
  | blankName
  | blankQueueName
  | blankConnector
  | groupAndConnectors
  | neitherGroupNorConnectors
  | unknownRoutingType (text : String)
  | multiplier (value : Binary64)
  | negative (field : String) (value : Int64)
  | attempts (field : String) (value : Int64)
  | size (field : String) (value : Int64)
  | passwordAndReference
  deriving DecidableEq

namespace Violation

/-- The wording of a broken rule. -/
def message : Violation → String
  | blankName => "name must not be empty"
  | blankQueueName => "queue_name must not be empty"
  | blankConnector => "static_connectors must not contain empty names"
  | groupAndConnectors => "discovery_group and static_connectors are mutually exclusive"
  | neitherGroupNorConnectors => "one of discovery_group or static_connectors is required"
  | unknownRoutingType text => RoutingType.unknownMessage text
  | multiplier value =>
    "retry_interval_multiplier must be a non-negative number (got " ++
      value.written Binary64.plainLayout ++ ")"
  | negative field value => field ++ " must not be negative (got " ++ Text.ofInt value.toInt ++ ")"
  | attempts field value =>
    field ++ " must be -1 or a non-negative count (got " ++ Text.ofInt value.toInt ++ ")"
  | size field value =>
    field ++ " must be -1 or between 0 and 4294967295 (got " ++ Text.ofInt value.toInt ++ ")"
  | passwordAndReference => "password and credential_reference are mutually exclusive"

end Violation

/-- A duration that must not be negative. -/
def duration (field : String) (value : Int64) : Except Violation Nat :=
  if value.toInt < 0 then .error (.negative field value) else .ok value.toInt.toNat

/-- A duration that `-1` disables. -/
def optionalDuration (field : String) (value : Int64) : Except Violation (Option Nat) :=
  if value = -1 then .ok none else (duration field value).map some

/-- A size of 32 bits that `-1` disables. -/
def optionalSize (field : String) (value : Int64) : Except Violation (Option Nat) :=
  if value = -1 then .ok none
  else if 0 ≤ value.toInt ∧ value.toInt < 2 ^ 32 then .ok (some value.toInt.toNat)
  else .error (.size field value)

/-- A size of 32 bits. -/
def requiredSize (field : String) (value : Int64) : Except Violation Nat :=
  if 0 ≤ value.toInt ∧ value.toInt < 2 ^ 32 then .ok value.toInt.toNat
  else .error (.negative field value)

/-- A bound on attempts. -/
def attemptLimit (field : String) (value : Int64) : Except Violation AttemptLimit :=
  match AttemptLimit.ofConfig? value with
  | some limit => .ok limit
  | none => .error (.attempts field value)

/-- A text that must not be blank. -/
def notBlank (violation : Violation) (text : String) : Except Violation Unit :=
  if Text.isBlankText text then .error violation else .ok ()

namespace Declared

/-- The way to the remote side; there must be exactly one. -/
def connectors (d : Declared) : Except Violation Connectors :=
  match d.discoveryGroup.bind Text.trimmed?, d.staticConnectors.getD [] with
  | some group, [] => .ok (.discoveryGroup group)
  | none, [] => .error .neitherGroupNorConnectors
  | none, names =>
    if names.any Text.isBlankText then .error .blankConnector else .ok (.fixed names)
  | some _, _ => .error .groupAndConnectors

/-- The source of the password; there is at most one. -/
def passwordSource (d : Declared) : Except Violation (Option PasswordSource) :=
  match d.password, d.credentialReference with
  | some _, some _ => .error .passwordAndReference
  | some password, none => .ok (some (.clear password))
  | none, some entry => .ok (some (.reference entry))
  | none, none => .ok none

/-- The credentials, if there is a user or a password. -/
def credentials (d : Declared) : Except Violation (Option Credentials) :=
  d.passwordSource.map fun password =>
    if d.user.isNone && password.isNone then none else some ⟨d.user, password⟩

/-- The factor between one wait and the next. -/
def multiplier (d : Declared) : Except Violation Binary64 :=
  let x := d.retryIntervalMultiplier
  if !x.isFinite || x.compare? (Binary64.ofInt 0) == some .lt then .error (.multiplier x) else .ok x

/-- The retry policy. -/
def retryPolicy (d : Declared) : Except Violation RetryPolicy := do
  let multiplier ← d.multiplier
  let interval ← duration "retry_interval" d.retryInterval
  let maxInterval ← duration "max_retry_interval" d.maxRetryInterval
  let initialConnectAttempts ← attemptLimit "initial_connect_attempts" d.initialConnectAttempts
  let reconnectAttempts ← attemptLimit "reconnect_attempts" d.reconnectAttempts
  let reconnectAttemptsOnSameNode ←
    attemptLimit "reconnect_attempts_on_same_node" d.reconnectAttemptsOnSameNode
  return ⟨interval, multiplier, maxInterval, initialConnectAttempts, reconnectAttempts,
    reconnectAttemptsOnSameNode⟩

/-- The routing type, the overridden one before the declared one. -/
def routing (d : Declared) (o : Overrides) : Except Violation RoutingType :=
  let text := (o.routingTypeFor d.name).getD d.routingType
  match RoutingType.ofText? text with
  | some routing => .ok routing
  | none => .error (.unknownRoutingType text)

/-- The definition that a declared bridge stands for, or the first rule that it breaks. -/
def resolve (d : Declared) (o : Overrides) : Except Violation Spec := do
  notBlank .blankName d.name
  notBlank .blankQueueName d.queueName
  let connectors ← d.connectors
  let routingType ← d.routing o
  let callTimeout ← duration "call_timeout" ((o.callTimeoutFor d.name).getD d.callTimeout)
  let retry ← d.retryPolicy
  let minLargeMessageSize ← requiredSize "min_large_message_size" d.minLargeMessageSize
  let checkPeriod ← optionalDuration "check_period" d.checkPeriod
  let connectionTtl ← optionalDuration "connection_ttl" d.connectionTtl
  let confirmationWindowSize ← optionalSize "confirmation_window_size" d.confirmationWindowSize
  let producerWindowSize ← optionalSize "producer_window_size" d.producerWindowSize
  let credentials ← d.credentials
  return {
    name := d.name
    queueName := d.queueName
    forwardingAddress := d.forwardingAddress
    filter := d.filter.bind Text.trimmed?
    transformerClassName := d.transformerClassName.bind Text.trimmed?
    connectors := connectors
    retry := retry
    minLargeMessageSize := minLargeMessageSize
    checkPeriod := checkPeriod
    connectionTtl := connectionTtl
    useDuplicateDetection := d.useDuplicateDetection
    confirmationWindowSize := confirmationWindowSize
    producerWindowSize := producerWindowSize
    ha := d.ha
    credentials := credentials
    callTimeout := callTimeout
    routingType := routingType }

end Declared

end BrokerAdmin.Bridge
