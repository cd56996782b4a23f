import Keyring.Text.Split
/-!
# Options

The arguments of the command line are options, which may stand anywhere, and one directory. A long
option takes its value from the next argument or after an equals sign, a short one from the rest of
its argument or from the next one; short options without a value may share an argument. Two dashes
end the options. Two environment variables stand in for arguments that are missing.
-/

namespace Keyring.CommandLine

/-- What is wrong with the arguments. -/
inductive UsageFault where
  | noSuchOption
  /-- A value is missing, or given to an option that takes none. -/
  | badOptionUsage
  | missingParameter
  | extraArgument
  deriving DecidableEq, Repr

/-- The options that take a value. -/
inductive Setting where
  | extension
  | fields
  | output
  deriving DecidableEq, Repr

/-- The options that take none. -/
inductive Switch where
  | jsonl
  | sync
  | verbose
  | help
  deriving DecidableEq, Repr

/-- An option of either kind. -/
abbrev Flag := Setting ⊕ Switch

/-- The options with long names. -/
def longFlag? (name : String) : Option Flag :=
  match name with
  | "--extension" => some (.inl .extension)
  | "--fields" => some (.inl .fields)
  | "--output" => some (.inl .output)
  | "--jsonl" => some (.inr .jsonl)
  | "--sync" => some (.inr .sync)
  | "--verbose" => some (.inr .verbose)
  | "--help" => some (.inr .help)
  | _ => none

/-- The options with names of one letter. -/
def shortFlag? (letter : Char) : Option Flag :=
  match letter with
  | 'e' => some (.inl .extension)
  | 'o' => some (.inl .output)
  | 'v' => some (.inr .verbose)
  | _ => none

/-- The arguments, sorted; of several values for an option the last counts. -/
structure Arguments where
  settings : List (Setting × String) := []
  switches : List Switch := []
  /-- What is no option. -/
  others : List String := []

namespace Arguments

def set (a : Arguments) (s : Setting) (value : String) : Arguments :=
  { a with settings := (s, value) :: a.settings }

def turnOn (a : Arguments) (s : Switch) : Arguments :=
  { a with switches := s :: a.switches }

def keep (a : Arguments) (others : List String) : Arguments :=
  { a with others := a.others ++ others }

/-- The value of an option. -/
def get? (a : Arguments) (s : Setting) : Option String :=
  a.settings.lookup s

def isOn (a : Arguments) (s : Switch) : Bool :=
  a.switches.contains s

end Arguments

/-- Gives an option the value that stands in the next argument. -/
def takeNext (a : Arguments) (s : Setting) :
    List String → Except UsageFault (Arguments × List String)
  | [] => .error .badOptionUsage
  | value :: rest => .ok (a.set s value, rest)

/-- Reads an argument that starts with one dash, letter by letter. -/
def readShort (a : Arguments) : List Char → List String → Except UsageFault (Arguments × List String)
  | [], rest => .ok (a, rest)
  | c :: cs, rest =>
    match shortFlag? c with
    | none => .error .noSuchOption
    | some (.inr s) => readShort (a.turnOn s) cs rest
    | some (.inl s) =>
      if cs.isEmpty then takeNext a s rest else .ok (a.set s (String.ofList cs), rest)

/-- An argument up to its first equals sign, and what follows that. -/
def splitValue (cs : List Char) : String × Option String :=
  let name := String.ofList (cs.takeWhile (· ≠ '='))
  match cs.dropWhile (· ≠ '=') with
  | [] => (name, none)
  | _ :: value => (name, some (String.ofList value))

/-- Reads an argument that starts with a dash. -/
def readFlag (a : Arguments) (argument : List Char) (rest : List String) :
    Except UsageFault (Arguments × List String) :=
  let (name, value?) := splitValue argument
  match longFlag? name, value? with
  | some (.inl s), some value => .ok (a.set s value, rest)
  | some (.inl s), none => takeNext a s rest
  | some (.inr _), some _ => .error .badOptionUsage
  | some (.inr s), none => .ok (a.turnOn s, rest)
  | none, _ =>
    if argument.take 2 = ['-', '-'] then .error .noSuchOption
    else readShort a (argument.drop 1) rest

/-- Sorts arguments; each of them uses one of `fuel`. -/
def readArguments : (fuel : Nat) → Arguments → List String → Except UsageFault Arguments
  | 0, a, _ => .ok a
  | _, a, [] => .ok a
  | fuel + 1, a, argument :: rest =>
    let cs := argument.toList
    if argument = "--" then .ok (a.keep rest)
    else if cs.head? = some '-' && 1 < cs.length then do
      let (a, rest) ← readFlag a cs rest
      readArguments fuel a rest
    else readArguments fuel (a.keep [argument]) rest

/-- Sorts the arguments of the command line. -/
def Arguments.read (arguments : List String) : Except UsageFault Arguments :=
  readArguments arguments.length {} arguments

end Keyring.CommandLine
