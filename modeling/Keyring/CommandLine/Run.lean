import Keyring.CommandLine.Options
import Keyring.Json.Writer
import Keyring.Load.Directory
/-!
# The command

The command loads a directory and writes what may be shown of the credentials, as one JSON array or
as one JSON object a line, to standard output or into a file. It exits with 0 if there are any
credentials, with 1 if there are none or the file cannot be written, and with 2 if the arguments
make no sense.
-/

namespace Keyring.CommandLine

/-- What the arguments and the environment ask for. -/
structure Request where
  directory : Path
  extension : String
  /-- The names to show; all if there are none. -/
  fields : List String
  jsonl : Bool
  output? : Option Path
  sync : Bool
  verbose : Bool

/-- What a run leaves behind. -/
structure Outcome where
  exit : Nat
  stdout : String := ""
  stderr : String := ""
  /-- A failure that left the command. -/
  failure? : Option Failure := none
  host : Host
  /-- The file that was written, and its text. -/
  written? : Option (Path × String) := none

/-- How a command line ends: it is refused, it asks for help, or it is run. -/
inductive End where
  | usage (fault : UsageFault)
  | help
  | run (o : Outcome)

/-- The variable that stands in for the directory. -/
def directoryVariable : String := "SIGNERLOAD_DIRECTORY"

/-- The variable that stands in for the extension. -/
def extensionVariable : String := "SIGNERLOAD_EXTENSION"

/-- The value of an environment variable; an empty one counts as none. -/
def setVariable? (environment : List (String × String)) (name : String) : Option String :=
  (environment.lookup name).filter (· ≠ "")

/-- Why arguments that could be sorted are not run. -/
inductive Rejection where
  | usage (fault : UsageFault)
  /-- A path that names nothing. -/
  | failure (f : Failure)

/-- A path among the arguments. -/
def pathArgument (text : String) : Except Rejection Path :=
  if hasNul text then .error (.failure nulFailure) else .ok (.ofString text)

/-- What the arguments ask for. -/
def Request.ofArguments (environment : List (String × String)) (a : Arguments) :
    Except Rejection Request := do
  let output? ← (a.get? .output).mapM pathArgument
  let directory ←
    match a.others.head?.or (setVariable? environment directoryVariable) with
    | some text => pathArgument text
    | none => throw (.usage .missingParameter)
  if 1 < a.others.length then throw (.usage .extraArgument)
  pure {
    directory
    extension :=
      ((a.get? .extension).or (setVariable? environment extensionVariable)).getD "yaml"
    fields :=
      match (a.get? .fields).filter (· ≠ "") with
      | some text => (Text.split ',' text.toList).map String.ofList
      | none => []
    jsonl := a.isOn .jsonl
    output?
    sync := a.isOn .sync
    verbose := a.isOn .verbose }

/-- What a command line that is run asks for. -/
def Request.ofCommandLine? (environment : List (String × String)) (arguments : List String) :
    Option Request := do
  let a ← (Arguments.read arguments).toOption
  if a.isOn .help then none else (Request.ofArguments environment a).toOption

/-- A record as a JSON object. -/
def recordValue (record : List (String × String)) : Json.Value :=
  .object (record.map fun e => (e.1, .str e.2))

/-- The text of records. -/
def renderRecords (jsonl : Bool) (records : List (List (String × String))) : String :=
  let values := records.map recordValue
  if jsonl then String.join (values.map fun v => Json.write .line v ++ "\n")
  else Json.write (.indented 2) (.list values) ++ "\n"

/-- The log as it is shown. -/
def renderLog (verbose : Bool) (log : List Log.Record) : String :=
  String.join ((log.filter fun r => verbose || r.level ≠ .debug).map Log.Record.line)

/-- Runs a request; workers follow the schedule. -/
def run (h : Host) (schedule : List Nat) (r : Request) : Outcome :=
  let mode := if r.sync then .sequential else .concurrent none
  let report := load h mode schedule Load.defaultLogger (MetadataFile.load .builtin h)
    (toString r.directory) r.extension
  let stderr := renderLog r.verbose report.log
  match report.result with
  | .error f =>
    if f.kind.isValue then
      let message := f.message.read.toOption.getD ""
      { exit := 2, stderr := stderr ++ message ++ "\n", host := h }
    else { exit := 1, stderr, failure? := some f, host := h }
  | .ok credentials =>
    let text := renderRecords r.jsonl (credentials.map (·.record r.fields))
    let exit := if credentials.isEmpty then 1 else 0
    match r.output? with
    | none => { exit, stdout := text, stderr, host := h }
    | some p =>
      match h.write p (Text.Utf8.encode text.toList) with
      | .ok host => { exit, stderr, host, written? := some (p, text) }
      | .error f => { exit := 1, stderr, failure? := some f, host := h }

/-- Runs the command with the given environment and arguments. -/
def execute (h : Host) (schedule : List Nat) (environment : List (String × String))
    (arguments : List String) : End :=
  match Arguments.read arguments with
  | .error fault => .usage fault
  | .ok a =>
    if a.isOn .help then .help
    else
      match Request.ofArguments environment a with
      | .ok r => .run (run h schedule r)
      | .error (.usage fault) => .usage fault
      | .error (.failure f) => .run { exit := 1, failure? := some f, host := h }

end Keyring.CommandLine
