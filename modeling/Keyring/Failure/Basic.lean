/-!
# Failures and their chains

A failure has a class, a message, and links to other failures: the cause that was named when it
was raised, and the context in which it was raised, which may be suppressed. The failures that
hang together form a graph, which may have cycles. `root` follows the links to the last failure
before the chain ends or comes back to one that has been passed; `rootMessage` is the text that a
log shows. Asking a failure for its text may itself end in a failure, which has a place in the graph
and may be of any kind.
-/

namespace Keyring

/-- The classes of failure. -/
inductive FailureClass where
  /-- A metadata file cannot be turned into a credential. -/
  | metadata
  /-- No handler is registered for a metadata type. -/
  | unknownType
  | general
  | runtime
  /-- A step that calls itself without end. -/
  | recursion
  | value
  | key
  | index
  | type
  | missingMember
  | overflow
  | zeroDivision
  /-- Text that is not JSON. -/
  | json
  /-- Bytes that are not the text they should be. -/
  | decoding
  /-- Text that has no bytes in some encoding. -/
  | encoding
  | base64
  | os
  | notFound
  | permission
  | isDirectory
  | notDirectory
  /-- The four stages of reading YAML, and the check of its characters. -/
  | reader
  | scanner
  | parser
  | composer
  | constructor
  /-- Has no text of its own. -/
  | unprintable
  /-- Stops the program; no handler of failures catches it. A request to exit and an interrupt from
  the keyboard are left out: an event loop raises these two again, so a load that runs in one would
  end in them and not go on without the candidate. -/
  | fatal
  deriving DecidableEq, Repr

namespace FailureClass

/-- The name that messages give a class. -/
def name : FailureClass → String
  | metadata => "SigningMetadataError"
  | unknownType => "UnknownMetadataTypeError"
  | general => "Exception"
  | runtime => "RuntimeError"
  | recursion => "RecursionError"
  | value => "ValueError"
  | key => "KeyError"
  | index => "IndexError"
  | type => "TypeError"
  | missingMember => "AttributeError"
  | overflow => "OverflowError"
  | zeroDivision => "ZeroDivisionError"
  | json => "JSONDecodeError"
  | decoding => "UnicodeDecodeError"
  | encoding => "UnicodeEncodeError"
  | base64 => "Error"
  | os => "OSError"
  | notFound => "FileNotFoundError"
  | permission => "PermissionError"
  | isDirectory => "IsADirectoryError"
  | notDirectory => "NotADirectoryError"
  | reader => "ReaderError"
  | scanner => "ScannerError"
  | parser => "ParserError"
  | composer => "ComposerError"
  | constructor => "ConstructorError"
  | unprintable => "Unprintable"
  | fatal => "Fatal"

/-- The failures that say a file gives no credential. -/
def isMetadata : FailureClass → Bool
  | metadata | unknownType => true
  | _ => false

/-- The failures of the file system. -/
def isOs : FailureClass → Bool
  | os | notFound | permission | isDirectory | notDirectory => true
  | _ => false

/-- The failures of a value that has the right type. -/
def isValue : FailureClass → Bool
  | value | json | decoding | encoding | base64 => true
  | _ => false

/-- The failures of a YAML text. -/
def isYaml : FailureClass → Bool
  | reader | scanner | parser | composer | constructor => true
  | _ => false

theorem name_ne_empty (c : FailureClass) : c.name ≠ "" := by
  cases c <;> decide

end FailureClass

namespace Failure

/-- What a failure says. -/
inductive Message where
  | text (s : String)
  /-- Asking for the text fails. -/
  | unprintable
  deriving DecidableEq, Repr

/-- One failure of a graph; the links are positions in the graph. -/
structure Node where
  kind : FailureClass
  message : Message
  cause? : Option Nat := none
  context? : Option Nat := none
  /-- The context is not shown. -/
  suppress : Bool := false
  /-- The failure that asking for the text ends in, where that fails. -/
  refusal? : Option Nat := none
  deriving DecidableEq, Repr

/-- Failures that hang together. -/
abbrev Graph := List Node

/-- The link that a chain follows: the cause, else the context unless it is suppressed. -/
def Node.next? (n : Node) : Option Nat :=
  n.cause?.or (if n.suppress then none else n.context?)

/-- The failure that the chain goes on with. -/
def Graph.next? (g : Graph) (i : Nat) : Option Nat :=
  (g[i]?.bind Node.next?).filter (· < g.length)

/-- Follows the chain from `i`; `seen` are the failures passed, `i` among them. -/
def Graph.rootFrom (g : Graph) : (steps : Nat) → (seen : List Nat) → (i : Nat) → Nat
  | 0, _, i => i
  | steps + 1, seen, i =>
    match g.next? i with
    | none => i
    | some j => if seen.contains j then i else g.rootFrom steps (j :: seen) j

/-- The last failure of the chain that starts at `i`. -/
def Graph.root (g : Graph) (i : Nat) : Nat :=
  g.rootFrom g.length [i] i

end Failure

/-- A failure together with all that it is linked to. -/
structure Failure where
  nodes : Failure.Graph
  top : Nat
  top_lt : top < nodes.length

namespace Failure

/-- The failure itself, without what it is linked to. -/
def node (f : Failure) : Node :=
  f.nodes.get ⟨f.top, f.top_lt⟩

def kind (f : Failure) : FailureClass := f.node.kind

def message (f : Failure) : Message := f.node.message

/-- A failure without links. -/
def ofMessage (kind : FailureClass) (message : Message) : Failure where
  nodes := [{ kind, message }]
  top := 0
  top_lt := by simp

/-- A failure with a text and without links. -/
def ofText (kind : FailureClass) (text : String) : Failure :=
  ofMessage kind (.text text)

/-- A failure raised because of `f`, which becomes its cause. -/
def wrap (kind : FailureClass) (text : String) (f : Failure) : Failure where
  nodes := f.nodes ++
    [{ kind, message := .text text, cause? := some f.top, context? := some f.top, suppress := true }]
  top := f.nodes.length
  top_lt := by simp

/-- A failure raised while `f` was being dealt with, which becomes its context. -/
def during (kind : FailureClass) (text : String) (f : Failure) : Failure where
  nodes := f.nodes ++ [{ kind, message := .text text, context? := some f.top }]
  top := f.nodes.length
  top_lt := by simp

/-- The position of the failure at the root of `f`. -/
def rootIndex (f : Failure) : Nat :=
  f.nodes.root f.top

/-- The failure at the root of `f`. -/
def rootNode (f : Failure) : Node :=
  (f.nodes[f.rootIndex]?).getD f.node

/-- The failure that asking an unprintable failure for its text ends in, unless it names
another. -/
def cannotPrint : Failure :=
  ofText .value "cannot print"

/-- The text of a failure. -/
def Message.read : Message → Except Failure String
  | .text s => .ok s
  | .unprintable => .error cannotPrint

/-- The failure that asking a failure of the graph for its text ends in. -/
def Graph.refusal (g : Graph) (n : Node) : Failure :=
  match n.refusal? with
  | some i => if h : i < g.length then ⟨g, i, h⟩ else cannotPrint
  | none => cannotPrint

/-- The text of a failure of the graph, or the name of its class if that is empty. -/
def Graph.caption (g : Graph) (n : Node) : Except Failure String :=
  match n.message with
  | .text s => .ok (if s = "" then n.kind.name else s)
  | .unprintable => .error (g.refusal n)

/-- What a log shows of a failure: the caption of its root. -/
def rootMessage (f : Failure) : Except Failure String :=
  f.nodes.caption f.rootNode

end Failure

end Keyring
