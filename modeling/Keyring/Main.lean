import Keyring.CommandLine.Run
/-!
# The program

Reads the arguments, the environment and the files that the command can need, runs the command on
them, and carries out what it answers. The files are the metadata directory with its entries, the
files that the metadata refer to, and the file to be written; symbolic links are followed while
they are read.
-/

namespace Keyring.Program

open CommandLine

/-- Where a path leads from the working directory, with double dots taken back. -/
def locationOf (h : Host) (p : Path) : Location :=
  p.parts.foldl (fun l name => if name = ".." then l.dropLast else l ++ [name])
    (if p.isAbsolute then [] else h.workingDirectory)

/-- The host with what is at a location. -/
def reveal (h : Host) (l : Location) : IO Host := do
  let file := (← IO.currentDir) / ("/" ++ "/".intercalate l)
  try
    match (← file.metadata).type with
    | .dir => pure { h with files := h.files.insert l .directory }
    | .file =>
      let bytes ← IO.FS.readBinFile file
      pure { h with files := h.files.insert l (.file bytes.toList) }
    | _ => pure h
  catch _ => pure h

/-- The host with what is on the way to a path and at it. -/
def revealPath (h : Host) (p : Path) : IO Host := do
  let l := locationOf h p
  (List.range l.length).foldlM (fun h n => reveal h (l.take (n + 1))) h

/-- The host with the entries of a directory. -/
def revealEntries (h : Host) (p : Path) : IO Host := do
  let l := locationOf h p
  let directory := (← IO.currentDir) / ("/" ++ "/".intercalate l)
  try
    (← directory.readDir).foldlM (fun h e => reveal h (l ++ [e.fileName])) h
  catch _ => pure h

/-- The host with all that a request can need. -/
def revealRequest (h : Host) (r : Request) : IO Host := do
  let h ← revealPath h r.directory
  let h ← revealEntries h r.directory
  let candidates := ((scan h r.directory r.extension).map (·.candidates)).toOption.getD []
  let files := candidates.flatMap fun c => MetadataFile.references h c.path
  (files ++ r.output?.toList).foldlM revealPath h

/-- The values of the variables that are set. -/
def readEnvironment (names : List String) : IO (List (String × String)) :=
  names.filterMapM fun name => do
    pure ((← IO.getEnv name).map fun value => (name, value))

/-- What the command line is told about arguments that make no sense. -/
def usageText : UsageFault → String
  | .noSuchOption => "No such option."
  | .badOptionUsage => "An option lacks its value, or has one that it does not take."
  | .missingParameter => "Missing argument 'DIRECTORY'."
  | .extraArgument => "Got an unexpected extra argument."

/-- How to use the command. -/
def helpText : String :=
  "Usage: keyring [OPTIONS] DIRECTORY\n\n" ++
  "Load signing keys from a directory of metadata files.\n\n" ++
  "  -e, --extension TEXT  Metadata file extension (case-insensitive)\n" ++
  "  --fields TEXT         Comma-separated subset of keys to emit\n" ++
  "  --jsonl               Emit one JSON object per line\n" ++
  "  -o, --output PATH     Write to PATH instead of stdout\n" ++
  "  --sync                Parse files one at a time in the calling thread\n" ++
  "  -v, --verbose         Log debug detail\n"

/-- Carries out what the command answers. -/
def finish : End → IO UInt32
  | .usage fault => do
    IO.eprintln (usageText fault)
    pure 2
  | .help => do
    IO.print helpText
    pure 0
  | .run o => do
    IO.eprint o.stderr
    if let some f := o.failure? then
      IO.eprintln (f.kind.name ++ ": " ++ (f.message.read.toOption.getD ""))
    if let some (p, text) := o.written? then
      IO.FS.writeFile (toString p) text
    IO.print o.stdout
    pure (UInt32.ofNat o.exit)

/-- Runs the program. -/
def run (arguments : List String) : IO UInt32 := do
  let environment ← readEnvironment [directoryVariable, extensionVariable]
  let here := FileTree.namesOf (toString (← IO.currentDir))
  let h : Host := {
    files := FileTree.empty.makeParents (here ++ ["."])
    workingDirectory := here
    home := (← IO.getEnv "HOME").getD "/" }
  let h ←
    match Request.ofCommandLine? environment arguments with
    | some r => revealRequest h r
    | none => pure h
  finish (CommandLine.execute h [] environment arguments)

end Keyring.Program

def main (arguments : List String) : IO UInt32 :=
  Keyring.Program.run arguments
