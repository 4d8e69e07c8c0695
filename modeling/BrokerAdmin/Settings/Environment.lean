import BrokerAdmin.Document.Record
import BrokerAdmin.Settings.Overlay

/-!
# Settings from the environment

A variable whose name begins with a fixed mark, in either case, gives the value of one setting. The rest of
the name in lower case is the key of the setting, two underscores standing for a dot.
-/

namespace BrokerAdmin.Settings

/-- What the names of variables that give settings begin with, in lower case. -/
def variableMark : List Char := "vibemq_mgmt__".toList

/-- A character in lower case, as far as the result is an ASCII letter; other letters stay, as no key of a
setting is made of them. -/
def lowerChar (c : Char) : Char :=
  if c = '\u212a' then 'k' else c.toLower

/-- The name with a dot in place of two underscores. -/
def dotted : List Char → List Char
  | '_' :: '_' :: rest => '.' :: dotted rest
  | c :: rest => c :: dotted rest
  | [] => []

/-- The key of the setting that a variable gives, if it gives one. -/
def variableKey? (name : String) : Option String :=
  let lowered := name.toList.map lowerChar
  if variableMark.isPrefixOf lowered then
    some (String.ofList (dotted (lowered.drop variableMark.length)))
  else none

/-- The value that a text in the environment stands for: a truth value, a number, or itself. -/
def variableValue (text : String) : Value :=
  match Text.lower text with
  | "true" => .bool true
  | "false" => .bool false
  | _ =>
    match Reading.signed64? text with
    | some n => .int n
    | none => (Binary64.ofText? text.toList).elim (.text text) .float

/-- Settings with those from the environment laid over them. -/
def overlayVariables (environment : List (String × String)) (base : Value) : Value :=
  environment.foldl
    (fun value (name, text) =>
      (variableKey? name).elim value fun key => set value key (variableValue text))
    base

end BrokerAdmin.Settings
