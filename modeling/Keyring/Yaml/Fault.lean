import Keyring.Failure.Basic
import Keyring.Text.Quoted
import Keyring.Yaml.Mark
/-!
# What is wrong with a YAML text

Most faults say what was being read, where that began, what is wrong and where. A character that no
YAML text may hold is reported by its number. A value that has no meaning for its tag (a month 13,
say) is a fault of its own kind, and so is a text that is looked for without end: reading turns
neither into a fault of the YAML text.
-/

namespace Keyring.Yaml

/-- The stages of reading that report marked faults. -/
inductive Stage where
  | scanner
  | parser
  | composer
  | constructor
  deriving DecidableEq, Repr

/-- A fault with its place. -/
structure Complaint where
  stage : Stage
  /-- What was being read. -/
  context? : Option String := none
  contextMark? : Option Mark := none
  problem : String
  mark : Mark
  /-- The failure to convert text that lies behind it. -/
  origin? : Option (FailureClass × String) := none
  deriving DecidableEq, Repr

/-- Why a value cannot be built. -/
inductive ValueFlaw where
  | value
  | key
  | index
  | type
  | missingMember
  | overflow
  /-- A step that no text asks for. -/
  | general
  deriving DecidableEq, Repr

inductive Fault where
  | marked (c : Complaint)
  | character (c : Char) (position : Nat)
  /-- A value that cannot be built. -/
  | value (flaw : ValueFlaw) (message : String)
  /-- A text that is looked for without end. -/
  | endless
  deriving DecidableEq, Repr

/-- The class of the failures of a stage. -/
def Stage.kind : Stage → FailureClass
  | .scanner => .scanner
  | .parser => .parser
  | .composer => .composer
  | .constructor => .constructor

/-- The class of the failures of a value. -/
def ValueFlaw.kind : ValueFlaw → FailureClass
  | .value => .value
  | .key => .key
  | .index => .index
  | .type => .type
  | .missingMember => .missingMember
  | .overflow => .overflow
  | .general => .general

/-- A fault found while reading something that began at `start`. -/
def Fault.inside (stage : Stage) (context : String) (start : Mark) (problem : String)
    (mark : Mark) : Fault :=
  .marked { stage, context? := some context, contextMark? := some start, problem, mark }

/-- A fault found at a place. -/
def Fault.at (stage : Stage) (problem : String) (mark : Mark) : Fault :=
  .marked { stage, problem, mark }

/-- "but found" and the character in quotes. -/
def butFound (wanted : String) (c : Char) : String :=
  "expected " ++ wanted ++ ", but found " ++ Text.quotedChar c

namespace Complaint

/-- The lines of the message. The place where the context began is left out when it is the place
of the problem. -/
def lines (text : List Char) (c : Complaint) : List String :=
  c.context?.toList ++
  (match c.contextMark? with
    | some m =>
      if m.line = c.mark.line ∧ m.column = c.mark.column then [] else [m.describe text]
    | none => []) ++
  [c.problem, c.mark.describe text]

/-- The message of a complaint about `text`. -/
def message (text : List Char) (c : Complaint) : String :=
  "\n".intercalate (c.lines text)

end Complaint

/-- A code point in hex, at least four digits wide. -/
def codeText (n : Nat) : String :=
  let digits := Nat.toDigits 16 n
  String.ofList (List.replicate (4 - digits.length) '0' ++ digits)

/-- The failure of a text that is looked for without end. -/
def endlessFailure : Failure :=
  .ofText .recursion "maximum recursion depth exceeded"

/-- The failure that a fault of `text` amounts to. -/
def Fault.toFailure (text : List Char) : Fault → Failure
  | .character c position =>
    .ofText .reader ("unacceptable character #x" ++ codeText c.toNat ++
      ": special characters are not allowed\n  in \"<unicode string>\", position " ++
      toString position)
  | .value flaw message => .ofText flaw.kind message
  | .endless => endlessFailure
  | .marked c =>
    match c.origin? with
    | none => .ofText c.stage.kind (c.message text)
    | some (kind, reason) => (Failure.ofText kind reason).during c.stage.kind (c.message text)

end Keyring.Yaml
