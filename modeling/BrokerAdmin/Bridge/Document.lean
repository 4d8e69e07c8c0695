import BrokerAdmin.Bridge.Spec
import BrokerAdmin.Document.Record
import BrokerAdmin.Text.Quoted

/-!
# Bridges in documents

Declared bridges and overrides are read from documents; resolved bridges are written to them. A
password in clear is never written: neither as a value nor inside a message.
-/

namespace BrokerAdmin.Bridge

/-- A signed number of 64 bits. -/
def int64? (reading : Reading) (value : Value) : Option Int64 :=
  (reading.int64? value).map Int64.ofInt

/-- An entry of a credential store. -/
def CredentialReference.ofValue? (reading : Reading) (value : Value) :
    Option CredentialReference := do
  let fields ← reading.record? ["store", "alias"] 2 value
  let store ← Value.required fields "store" reading.text?
  let entry ← Value.required fields "alias" reading.text?
  return ⟨store, entry⟩

namespace Declared

/-- The fields of a declared bridge, in their order. -/
def fieldNames : List String :=
  ["name", "queue_name", "forwarding_address", "filter", "transformer_class_name", "discovery_group",
   "static_connectors", "min_large_message_size", "check_period", "connection_ttl", "retry_interval",
   "retry_interval_multiplier", "max_retry_interval", "initial_connect_attempts", "reconnect_attempts",
   "reconnect_attempts_on_same_node", "use_duplicate_detection", "confirmation_window_size",
   "producer_window_size", "ha", "user", "password", "credential_reference", "call_timeout",
   "routing_type", "enabled"]

/-- A declared bridge; only its name and its queue must be given. -/
def ofValue? (reading : Reading) (value : Value) : Option Declared := do
  let fields ← reading.record? fieldNames 2 value
  let text name := Value.optional fields name reading.text?
  let number name default := Value.defaulted fields name (int64? reading) default
  let truth name default := Value.defaulted fields name reading.bool? default
  let d := unnamed
  return {
    name := ← Value.required fields "name" reading.text?
    queueName := ← Value.required fields "queue_name" reading.text?
    forwardingAddress := ← text "forwarding_address"
    filter := ← text "filter"
    transformerClassName := ← text "transformer_class_name"
    discoveryGroup := ← text "discovery_group"
    staticConnectors := ← Value.optional fields "static_connectors" (Value.listOf reading.text?)
    minLargeMessageSize := ← number "min_large_message_size" d.minLargeMessageSize
    checkPeriod := ← number "check_period" d.checkPeriod
    connectionTtl := ← number "connection_ttl" d.connectionTtl
    retryInterval := ← number "retry_interval" d.retryInterval
    retryIntervalMultiplier :=
      ← Value.defaulted fields "retry_interval_multiplier" reading.number? d.retryIntervalMultiplier
    maxRetryInterval := ← number "max_retry_interval" d.maxRetryInterval
    initialConnectAttempts := ← number "initial_connect_attempts" d.initialConnectAttempts
    reconnectAttempts := ← number "reconnect_attempts" d.reconnectAttempts
    reconnectAttemptsOnSameNode :=
      ← number "reconnect_attempts_on_same_node" d.reconnectAttemptsOnSameNode
    useDuplicateDetection := ← truth "use_duplicate_detection" d.useDuplicateDetection
    confirmationWindowSize := ← number "confirmation_window_size" d.confirmationWindowSize
    producerWindowSize := ← number "producer_window_size" d.producerWindowSize
    ha := ← truth "ha" d.ha
    user := ← text "user"
    password := ← text "password"
    credentialReference :=
      ← Value.optional fields "credential_reference" (CredentialReference.ofValue? reading)
    callTimeout := ← number "call_timeout" d.callTimeout
    routingType := ← Value.defaulted fields "routing_type" reading.text? d.routingType
    enabled := ← truth "enabled" d.enabled }

end Declared

/-- The overridden attributes of one bridge. -/
def Override.ofValue? (reading : Reading) (value : Value) : Option Override := do
  let fields ← reading.record? ["call_timeout", "routing_type"] 0 value
  let callTimeout ← Value.optional fields "call_timeout" (int64? reading)
  let routingType ← Value.optional fields "routing_type" reading.text?
  return { callTimeout := callTimeout, routingType := routingType }

/-- The overrides for all bridges. -/
def Overrides.ofValue? (reading : Reading) (value : Value) : Option Overrides := do
  let fields ← reading.record? ["call_timeout", "bridges"] 0 value
  let callTimeout ← Value.optional fields "call_timeout" (int64? reading)
  let bridges ←
    Value.defaulted fields "bridges" (Value.catalogOf (Override.ofValue? reading)) Catalog.empty
  return { callTimeout := callTimeout, bridges := bridges }

/-- The way to the remote side. -/
def Connectors.toValue : Connectors → Value
  | discoveryGroup name => .table [("discovery_group", .text name)]
  | fixed names => .table [("static", .list (names.map .text))]

/-- An entry of a credential store. -/
def CredentialReference.toValue (r : CredentialReference) : Value :=
  .table [("store", .text r.store), ("alias", .text r.entry)]

namespace PasswordSource

/-- What is written in place of a password. -/
def mask : String := "***"

/-- The source of a password, the password itself masked. -/
def toValue : PasswordSource → Value
  | clear _ => .text mask
  | reference r => r.toValue

/-- The source of a password as it is shown inside a message. -/
def shown : PasswordSource → String
  | clear _ => "Clear(" ++ mask ++ ")"
  | reference r =>
    "Reference \x7b store: " ++ Text.quoted r.store ++ ", alias: " ++ Text.quoted r.entry ++
      " \x7d"

end PasswordSource

/-- Credentials. -/
def Credentials.toValue (c : Credentials) : Value :=
  .table [("user", Value.ofText? c.user),
    ("password", c.password.elim .null PasswordSource.toValue)]

/-- A duration, `-1` where it is disabled. -/
def durationValue (millis : Option Nat) : Value :=
  millis.elim (.int (-1)) fun n => .int n

/-- A size, null where it is disabled. -/
def sizeValue (size : Option Nat) : Value :=
  size.elim .null fun n => .int n

/-- A retry policy. -/
def RetryPolicy.toValue (p : RetryPolicy) : Value :=
  .table [("retry_interval", .int p.interval), ("retry_interval_multiplier", .float p.multiplier),
    ("max_retry_interval", .int p.maxInterval),
    ("initial_connect_attempts", .int p.initialConnectAttempts.toConfig),
    ("reconnect_attempts", .int p.reconnectAttempts.toConfig),
    ("reconnect_attempts_on_same_node", .int p.reconnectAttemptsOnSameNode.toConfig)]

/-- A resolved bridge. -/
def Spec.toValue (s : Spec) : Value :=
  .table [("name", .text s.name), ("queue_name", .text s.queueName),
    ("forwarding_address", Value.ofText? s.forwardingAddress), ("filter", Value.ofText? s.filter),
    ("transformer_class_name", Value.ofText? s.transformerClassName),
    ("connectors", s.connectors.toValue), ("retry", s.retry.toValue),
    ("min_large_message_size", .int s.minLargeMessageSize),
    ("check_period", durationValue s.checkPeriod), ("connection_ttl", durationValue s.connectionTtl),
    ("use_duplicate_detection", .bool s.useDuplicateDetection),
    ("confirmation_window_size", sizeValue s.confirmationWindowSize),
    ("producer_window_size", sizeValue s.producerWindowSize), ("ha", .bool s.ha),
    ("credentials", s.credentials.elim .null Credentials.toValue),
    ("call_timeout", .int s.callTimeout), ("routing_type", .text s.routingType.name)]

end BrokerAdmin.Bridge
