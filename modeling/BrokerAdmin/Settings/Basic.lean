import BrokerAdmin.Bridge.Document
import BrokerAdmin.Bridge.Error

/-!
# Settings

The settings of administration: a log level, the declared bridges, and the overrides of their attributes.
They are consistent when the log level is known, no two bridges share a name, every bridge resolves, and
only declared bridges are overridden; the first fault in this order is reported.
-/

namespace BrokerAdmin

/-- The settings of administration. -/
structure Settings where
  logLevel : String := "info"
  bridges : List Bridge.Declared := []
  overrides : Bridge.Overrides := {}
  deriving DecidableEq

namespace Settings

/-- The names of the log levels. -/
def logLevels : List String := ["error", "warn", "info", "debug", "trace"]

/-- Why settings are not consistent. -/
inductive Fault where
  | logLevel (text : String)
  | duplicateBridge (name : String)
  | bridge (e : Bridge.Error)
  | unknownBridge (name : String)
  deriving DecidableEq

/-- The wording of a fault. -/
def Fault.message : Fault → String
  | logLevel text => "log.level must be one of " ++ ", ".intercalate logLevels ++ " (got '" ++ text ++ "')"
  | duplicateBridge name => "Duplicate bridge name '" ++ name ++ "'"
  | bridge e => e.message
  | unknownBridge name => "bridge_overrides names unknown bridge '" ++ name ++ "'"

/-- Check bridges in their order, after those whose names have been seen. -/
def checkBridges (o : Bridge.Overrides) : List String → List Bridge.Declared → Except Fault Unit
  | _, [] => .ok ()
  | seen, d :: rest =>
    if seen.contains d.name then .error (.duplicateBridge d.name)
    else
      match Bridge.resolve o d with
      | .error e => .error (.bridge e)
      | .ok _ => checkBridges o (d.name :: seen) rest

/-- Check that only bridges of the given names are overridden; the least other name is reported. -/
def checkOverrides (o : Bridge.Overrides) (names : List String) : Except Fault Unit :=
  match o.bridges.names.find? fun name => !names.contains name with
  | some name => .error (.unknownBridge name)
  | none => .ok ()

/-- Check that settings are consistent. -/
def validate (s : Settings) : Except Fault Unit := do
  if !logLevels.contains (Text.lower s.logLevel) then throw (.logLevel s.logLevel)
  checkBridges s.overrides [] s.bridges
  checkOverrides s.overrides (s.bridges.map (·.name))

/-- The definitions that the declared bridges stand for, in their order. -/
def resolvedBridges (s : Settings) : Except Bridge.Error (List Bridge.Spec) :=
  s.bridges.mapM (Bridge.resolve s.overrides)

/-- The log level out of a record. -/
def logLevelOfValue? (reading : Reading) (value : Value) : Option String := do
  let fields ← reading.record? ["level"] 0 value
  Value.defaulted fields "level" reading.text? ({} : Settings).logLevel

/-- Settings out of a record; everything may be missing. -/
def ofValue? (reading : Reading) (value : Value) : Option Settings := do
  let defaults : Settings := {}
  let fields ← reading.record? ["log", "bridge", "bridge_overrides"] 0 value
  let logLevel ← Value.defaulted fields "log" (logLevelOfValue? reading) defaults.logLevel
  let bridges ←
    Value.defaulted fields "bridge" (Value.listOf (Bridge.Declared.ofValue? reading)) defaults.bridges
  let overrides ←
    Value.defaulted fields "bridge_overrides" (Bridge.Overrides.ofValue? reading) defaults.overrides
  return { logLevel := logLevel, bridges := bridges, overrides := overrides }

end Settings

end BrokerAdmin
