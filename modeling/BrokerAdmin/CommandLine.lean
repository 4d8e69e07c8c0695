import BrokerAdmin.Settings.Source
import BrokerAdmin.Subscription.Selector
import BrokerAdmin.Json.Printer

/-!
# The command line

Settings can be checked and rendered, and selectors translated, without any broker. An option
takes its value from the same argument, after an equals sign or right behind a single letter, or from
the next one; after `--` there are operands only. A log level can be given to every command and must be one
that is known. What the program logs at that level, about the loaded file and the rendered bridges, is left out.
-/

namespace BrokerAdmin.CommandLine

/-- What can be asked for. -/
inductive Command where
  | check (path : String)
  | render (path : String) (bridge : Option String)
  | selector (expression : String)
  | version
  deriving DecidableEq

/-- A command that the first operand names. -/
inductive Verb where
  | check
  | render
  | selector
  deriving DecidableEq

/-- An option with a value. -/
inductive Setting where
  | logLevel
  | config
  | bridge
  deriving DecidableEq

namespace Verb

/-- The verb of that name. -/
def ofName? : String → Option Verb
  | "check" => some check
  | "render" => some render
  | "selector" => some selector
  | _ => none

/-- Whether a verb knows an option. -/
def allows : Verb → Setting → Bool
  | _, .logLevel => true
  | check, .config => true
  | render, _ => true
  | _, _ => false

end Verb

namespace Setting

/-- The option with that long name. -/
def ofName? : String → Option Setting
  | "log-level" => some logLevel
  | "config" => some config
  | "bridge" => some bridge
  | _ => none

/-- The option with that letter. -/
def ofLetter? : Char → Option Setting
  | 'l' => some logLevel
  | 'c' => some config
  | _ => none

/-- Whether an option takes a value: a log level must be known, and a path must not be empty. -/
def takes : Setting → String → Bool
  | logLevel, value => Settings.logLevels.contains value
  | config, value => !value.isEmpty
  | bridge, _ => true

end Setting

/-- An argument by its form. -/
inductive Argument where
  | operand (text : String)
  /-- From here on there are operands only. -/
  | endOfOptions
  /-- An option with its value. -/
  | complete (setting : Setting) (value : String)
  /-- An option whose value is the next argument. -/
  | pending (setting : Setting)
  | version
  | unknown
  deriving DecidableEq

namespace Argument

/-- An option with the text that is attached to it, if any. -/
def option (setting : Option Setting) (value : Option String) : Argument :=
  match setting, value with
  | some setting, some value => complete setting value
  | some setting, none => pending setting
  | none, _ => unknown

/-- The argument after two dashes. -/
def ofLong (chars : List Char) : Argument :=
  let (name, rest) := chars.span (· != '=')
  let name := String.ofList name
  if name = "version" && rest.isEmpty then version
  else option (Setting.ofName? name) (rest.tail?.map String.ofList)

/-- The argument after one dash: a letter, and what is attached to it. -/
def ofShort (letter : Char) (rest : List Char) : Argument :=
  if letter = 'V' then version
  else
    let value := if rest.head? == some '=' then rest.tail else rest
    option (Setting.ofLetter? letter) (if rest.isEmpty then none else some (String.ofList value))

/-- An argument by its form. -/
def ofText (text : String) : Argument :=
  match text.toList with
  | ['-', '-'] => endOfOptions
  | '-' :: '-' :: name => ofLong name
  | '-' :: letter :: rest => ofShort letter rest
  | _ => operand text

end Argument

/-- The options that have been given so far to a command, and its operands. -/
structure Given where
  values : List (Setting × String) := []
  operands : List String := []

namespace Given

/-- The value given for an option. -/
def value? (g : Given) (setting : Setting) : Option String :=
  g.values.lookup setting

/-- One more option; none may be given twice. -/
def add (g : Given) (setting : Setting) (value : String) : Option Given :=
  if (g.value? setting).isSome || !setting.takes value then none
  else some { g with values := (setting, value) :: g.values }

end Given

/-- The options and operands among the arguments after a verb. -/
def afterVerb (verb : Verb) (g : Given) : List String → Option Given
  | [] => some g
  | text :: rest =>
    match Argument.ofText text, rest with
    | .operand text, rest => afterVerb verb { g with operands := g.operands ++ [text] } rest
    | .endOfOptions, rest => some { g with operands := g.operands ++ rest }
    | .complete setting value, rest =>
      if verb.allows setting then (g.add setting value).bind fun g => afterVerb verb g rest else none
    | .pending setting, value :: rest =>
      if verb.allows setting && Argument.ofText value == .operand value then
        (g.add setting value).bind fun g => afterVerb verb g rest
      else none
    | _, _ => none

/-- The command that a verb makes with its options and operands. -/
def Verb.command? (verb : Verb) (g : Given) : Option Command :=
  match verb, g.operands with
  | check, [] => (g.value? .config).map .check
  | render, [] => (g.value? .config).map fun path => .render path (g.value? .bridge)
  | selector, [expression] => some (.selector expression)
  | _, _ => none

/-- The command that the arguments ask for; nothing where they are misused. -/
def beforeVerb (g : Given) : List String → Option Command
  | [] => none
  | text :: rest =>
    match Argument.ofText text, rest with
    | .operand text, rest =>
      (Verb.ofName? text).bind fun verb => (afterVerb verb {} rest).bind verb.command?
    | .version, _ => some .version
    | .complete .logLevel value, rest => (g.add .logLevel value).bind fun g => beforeVerb g rest
    | .pending .logLevel, value :: rest =>
      if Argument.ofText value == .operand value then
        (g.add .logLevel value).bind fun g => beforeVerb g rest
      else none
    | _, _ => none

/-- The command that the arguments ask for; nothing where they are misused. -/
def parse (arguments : List String) : Option Command :=
  beforeVerb {} arguments

/-- What a run of the program leaves behind. -/
structure Outcome where
  exitCode : UInt8
  output : String
  errors : String
  deriving DecidableEq

namespace Outcome

/-- A run that succeeded and printed lines. -/
def printed (lines : List String) : Outcome :=
  ⟨0, String.join (lines.map (· ++ "\n")), ""⟩

/-- A run that failed with a line of explanation. -/
def failed (line : String) : Outcome :=
  ⟨1, "", line ++ "\n"⟩

/-- A run whose arguments were misused. -/
def misused : Outcome :=
  ⟨2, "", "usage: vibemq-mgmt [-l LEVEL] check -c FILE | render -c FILE [--bridge NAME] | selector EXPR\n"⟩

end Outcome

/-- The line about a bridge among the checked ones. -/
def bridgeLine (d : Bridge.Declared) (spec : Bridge.Spec) : String :=
  let connectors :=
    match spec.connectors with
    | .discoveryGroup group => "discovery group " ++ group
    | .fixed names => "connectors " ++ ",".intercalate names
  spec.name ++ ": queue " ++ spec.queueName ++ " via " ++ connectors ++ " routing " ++
    spec.routingType.name ++ (if d.enabled then "" else " (disabled)")

/-- The run that ends with settings of which a bridge does not resolve. -/
def unresolved (e : Bridge.Error) : Outcome :=
  .failed ("Error: Validation(" ++ Text.quoted e.message ++ ")")

/-- The run that reports on checked settings. -/
def check (s : Settings) : Outcome :=
  match s.resolvedBridges with
  | .error e => unresolved e
  | .ok specs => .printed (List.zipWith bridgeLine s.bridges specs ++ ["Configuration OK"])

/-- The run that prints the resolved bridges, or the one of a given name. -/
def render (s : Settings) (bridge : Option String) : Outcome :=
  match s.resolvedBridges with
  | .error e => unresolved e
  | .ok specs =>
    match bridge, specs.filter fun spec => bridge.all (· == spec.name) with
    | some name, [] => .failed ("No bridge named '" ++ name ++ "'")
    | _, chosen => .printed [Json.renderIndented (.list (chosen.map Bridge.Spec.toValue))]

/-- The run that translates a selector. -/
def translate (selector : String) : Outcome :=
  match Selector.toFilter (some selector) with
  | .ok filter => .printed [filter.getD ""]
  | .error e =>
    .failed ("Error: SelectorError \x7b selector: " ++ Text.quoted e.selector ++ ", reason: " ++
      Text.quoted e.reason ++ " \x7d")

/-- The run over the settings of a file. -/
def withSettings (environment : List (String × String)) (file : Settings.File) (run : Settings → Outcome) :
    Outcome :=
  match Settings.loadFile environment file with
  | .ok s => run s
  | .error e => .failed ("Error loading config file: " ++ e.message)

/-- Carry out a command, the file of its settings having been looked up. -/
def Command.run (environment : List (String × String)) (files : String → Settings.File) : Command → Outcome
  | check path => withSettings environment (files path) CommandLine.check
  | render path bridge => withSettings environment (files path) fun s => CommandLine.render s bridge
  | selector expression => translate expression
  | version => .printed ["vibemq-mgmt 0.0.0-dev"]

/-- Run the program with the given arguments. -/
def run (environment : List (String × String)) (files : String → Settings.File)
    (arguments : List String) : Outcome :=
  match parse arguments with
  | some command => command.run environment files
  | none => .misused

end BrokerAdmin.CommandLine
