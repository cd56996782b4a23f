import Keyring.Failure.Arguments
import Keyring.FileTree.Walk
import Keyring.Path
import Keyring.Text.Blank
import Keyring.Text.Lines
import Keyring.Text.Utf8
/-!
# The host

What a load sees of the machine it runs on: the files, the directory that relative paths start
from, and the home directories. `read` and `write` answer as the file system does, refusals
included; `expandHome` puts a home directory for a leading tilde.
-/

namespace Keyring

structure Host where
  files : FileTree
  /-- Where relative paths start. -/
  workingDirectory : Location
  /-- The home directory of the user. -/
  home : String
  /-- The home directories of other users. -/
  homes : List (String × String) := []

/-! ## Refusals -/

namespace Refusal

def number : Refusal → Nat
  | noEntry => 2
  | notDirectory => 20
  | isDirectory => 21
  | nameTooLong => 36
  | tooManyLinks => 40

def reason : Refusal → String
  | noEntry => "No such file or directory"
  | notDirectory => "Not a directory"
  | isDirectory => "Is a directory"
  | nameTooLong => "File name too long"
  | tooManyLinks => "Too many levels of symbolic links"

def kind : Refusal → FailureClass
  | noEntry => .notFound
  | notDirectory => .notDirectory
  | isDirectory => .isDirectory
  | nameTooLong | tooManyLinks => .os

/-- The failure that a refusal amounts to. It is raised with the number, the reason and the path. -/
def failure (r : Refusal) (p : Path) : Failure :=
  .ofMessage r.kind (.ofArguments r.kind [.int r.number, .str r.reason, .str (toString p)])

theorem failure_eq (r : Refusal) (p : Path) : r.failure p =
    .ofText r.kind ("[Errno " ++ toString r.number ++ "] " ++ r.reason ++ ": " ++
      Text.quoted (toString p)) := by
  cases r <;> rfl

theorem isOs_kind (r : Refusal) (p : Path) : (r.failure p).kind.isOs = true := by
  cases r <;> rfl

end Refusal

/-- A path with a NUL character names nothing. -/
def nulFailure : Failure :=
  .ofText .value "embedded null byte"

/-- Whether a text holds a NUL character. -/
def hasNul (s : String) : Bool :=
  s.toList.any fun c => c.toNat == 0

/-- The failure to read bytes as text. -/
def decodingFailure (flaw : Text.Utf8.Flaw) : Failure :=
  .ofText .decoding flaw.message

namespace Host

/-- The longest path, in bytes. -/
def longestPath : Nat := 4095

/-- Where a path leads. -/
def reach (h : Host) (purpose : FileTree.Purpose) (p : Path) : FileTree.Walk :=
  if longestPath < (toString p).utf8ByteSize then .refused .nameTooLong
  else
    h.files.walkFor purpose FileTree.mostLinks (if p.isAbsolute then [] else h.workingDirectory)
      p.parts

/-- What a path leads to. -/
def locate (h : Host) (p : Path) : FileTree.Walk :=
  h.reach .read p

/-- The bytes of a file, or why they cannot be read. -/
def bytes? (h : Host) (p : Path) : Except Refusal (List UInt8) :=
  match h.locate p with
  | .found _ (.file bytes) => .ok bytes
  | .found _ .directory => .error .isDirectory
  | .found _ (.link _) => .error .tooManyLinks
  | .missing _ _ => .error .noEntry
  | .refused r => .error r

/-- The bytes of a file. -/
def read (h : Host) (p : Path) : Except Failure (List UInt8) :=
  if hasNul (toString p) then .error nulFailure
  else
    match h.bytes? p with
    | .ok bytes => .ok bytes
    | .error r => .error (r.failure p)

/-- The text of bytes, every line end a line feed. -/
def textOf (bytes : List UInt8) : Except Failure (List Char) :=
  match Text.Utf8.decode bytes with
  | .ok cs => .ok (Text.unifyLineEnds cs)
  | .error flaw => .error (decodingFailure flaw)

/-- The text of a file. -/
def readText (h : Host) (p : Path) : Except Failure (List Char) := do
  textOf (← h.read p)

/-- The host after a file was written, or why it cannot be. -/
def write? (h : Host) (p : Path) (bytes : List UInt8) : Except Refusal Host :=
  match h.reach .write p with
  | .found l (.file _) => .ok { h with files := h.files.insert l (.file bytes) }
  | .found _ .directory => .error .isDirectory
  | .found _ (.link _) => .error .tooManyLinks
  | .missing directory name =>
    .ok { h with files := h.files.insert (directory ++ [name]) (.file bytes) }
  | .refused r => .error r

/-- The host after a file was written. -/
def write (h : Host) (p : Path) (bytes : List UInt8) : Except Failure Host :=
  if hasNul (toString p) then .error nulFailure
  else
    match h.write? p bytes with
    | .ok h => .ok h
    | .error r => .error (r.failure p)

/-! ## Home directories -/

/-- A home directory as it replaces a tilde: without slashes at its end. -/
def trimHome (home : String) : String :=
  let trimmed := String.ofList (Text.dropEndWhile (· == '/') home.toList)
  if trimmed = "" then "/" else trimmed

/-- The failure to find a home directory. -/
def noHome : Failure :=
  .ofText .runtime "Could not determine home directory."

/-- The home directory that a first component stands for, which starts with a tilde. -/
def homeOf (h : Host) (component : String) : Except Failure Path :=
  let found (home : String) : Except Failure Path :=
    if (trimHome home).toList.head? = some '~' then .error noHome
    else .ok (.ofString (trimHome home))
  let user := String.ofList (component.toList.drop 1)
  if user = "" then found h.home
  else if hasNul user then .error nulFailure
  else
    match h.homes.lookup user with
    | some home => found home
    | none => .error noHome

/-- The path with a home directory for its first component if that starts with a tilde. -/
def expandHome (h : Host) (p : Path) : Except Failure Path :=
  match p.root, p.parts with
  | .relative, first :: _ =>
    if first.toList.head? = some '~' then do
      let home ← h.homeOf first
      pure (home.join p.withoutFirst)
    else .ok p
  | _, _ => .ok p

end Host

end Keyring
