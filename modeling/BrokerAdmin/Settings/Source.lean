import BrokerAdmin.Settings.Basic
import BrokerAdmin.Settings.Environment
import BrokerAdmin.Settings.Placeholder
import BrokerAdmin.Toml.Reader

/-!
# Where settings come from

Settings are read from a TOML text in one of two ways. On its own, the text is taken as it stands, every
scalar by its type. As a file among other sources, its placeholders are replaced, the defaults lie below
it and the environment above, and scalars are converted to what a setting wants. Either way the result
must be consistent.
-/

namespace BrokerAdmin.Settings

/-- Why a file gives no text. -/
inductive FileFault where
  | missing
  | directory
  /-- The bytes are not text in UTF-8. -/
  | notText
  | unreadable
  deriving DecidableEq

/-- Why there are no settings. -/
inductive Error where
  | file (fault : FileFault)
  /-- The text is malformed or does not hold settings. -/
  | malformedText
  /-- The sources taken together are malformed or do not hold settings. -/
  | malformedSources
  | inconsistent (fault : Fault)
  deriving DecidableEq

/-- The wording of an error. -/
def Error.message : Error → String
  | file _ => "IO error"
  | malformedText => "Parse error"
  | malformedSources => "Config error"
  | inconsistent fault => "Validation error: " ++ fault.message

/-- Settings that have been found, if they are consistent. -/
def consistent (s : Settings) : Except Error Settings :=
  match s.validate with
  | .ok () => .ok s
  | .error fault => .error (.inconsistent fault)

/-- A text on its own is read by version 1.0 of the format. -/
def textRules : Toml.Rules where
  depth := 79
  version11 := false
  keepsLineBreaks := false
  boundsNegative := false
  adoptsPassing := false

/-- A file among other sources is read by version 1.1 of the format. -/
def fileRules : Toml.Rules where
  depth := 80
  version11 := true
  keepsLineBreaks := true
  boundsNegative := true
  adoptsPassing := true

/-- The settings that a text holds on its own, before they are checked. Dates and times are shown as tables. -/
def ofText? (reading : Reading) (text : String) : Option Settings :=
  (Toml.parse? textRules text).bind fun fields =>
    ofValue? reading (.table (Toml.Datum.fieldValues Toml.Moment.asTable fields))

/-- The settings that a text holds on its own. -/
def parse (text : String) : Except Error Settings :=
  match ofText? Reading.typed text with
  | some s => consistent s
  | none => .error .malformedText

/-- The settings below those of all sources. -/
def defaults : Value :=
  set (.table []) "log.level" (.text ({} : Settings).logLevel)

/-- The settings of a file, its placeholders replaced, laid over others. Dates and times become texts. -/
def overlayFile? (environment : List (String × String)) (text : String) (base : Value) : Option Value :=
  (Toml.parse? fileRules (String.ofList (substitute (List.lookup · environment) text.toList))).map fun fields =>
    (Toml.Datum.fieldValues Toml.Moment.asText fields).foldl (fun value (key, part) => set value key part) base

/-- The settings of all sources together, the text of the file being optional. -/
def gather (environment : List (String × String)) (text : Option String) : Except Error Settings :=
  let base := text.elim (some defaults) fun text => overlayFile? environment text defaults
  match base.bind fun base => ofValue? Reading.converting (overlayVariables environment base) with
  | some s => consistent s
  | none => .error .malformedSources

/-- What was found under the path of a file. -/
abbrev File := Except FileFault ByteArray

/-- The text of a file. -/
def textOf (file : File) : Except FileFault String :=
  match file with
  | .error fault => .error fault
  | .ok bytes =>
    match String.fromUTF8? bytes with
    | some text => .ok text
    | none => .error .notText

/-- The settings of a file that must exist, with the environment. -/
def loadFile (environment : List (String × String)) (file : File) : Except Error Settings :=
  match textOf file with
  | .ok text => gather environment (some text)
  | .error fault => .error (.file fault)

/-- The settings of a file, if it exists, with the environment. -/
def load (environment : List (String × String)) (file : File) : Except Error Settings :=
  match file with
  | .error .missing => gather environment none
  | file => loadFile environment file

end BrokerAdmin.Settings
