import BrokerAdmin.CommandLine

/-!
# The program

The command line over the files and the environment of the machine.
-/

namespace BrokerAdmin.CommandLine

/-- What is found under the path of a file. -/
def lookUpFile (path : String) : IO Settings.File := do
  try
    return .ok (← IO.FS.readBinFile path)
  catch
    | .noFileOrDirectory .. => return .error .missing
    | .inappropriateType .. => return .error .directory
    | _ => return .error .unreadable

/-- A variable as it stands in the list of all variables. -/
def variableOfText (text : String) : String × String :=
  let (name, rest) := text.toList.span (· != '=')
  (String.ofList name, String.ofList rest.tail)

/-- The variables of the environment. -/
def lookUpEnvironment : IO (List (String × String)) := do
  try
    let bytes ← IO.FS.readBinFile "/proc/self/environ"
    let text := (String.fromUTF8? bytes).getD ""
    return ((text.splitOn "\x00").filter (!·.isEmpty)).map variableOfText
  catch _ => return []

/-- Run the program; the files that may hold settings are looked up first. -/
def execute (arguments : List String) : IO UInt32 := do
  let environment ← lookUpEnvironment
  let file ←
    match parse arguments with
    | some (.check path) | some (.render path _) => lookUpFile path
    | _ => pure (.error .missing)
  let outcome := run environment (fun _ => file) arguments
  (← IO.getStdout).putStr outcome.output
  (← IO.getStderr).putStr outcome.errors
  return outcome.exitCode.toUInt32

end BrokerAdmin.CommandLine

/-- The program. -/
def main (arguments : List String) : IO UInt32 :=
  BrokerAdmin.CommandLine.execute arguments
