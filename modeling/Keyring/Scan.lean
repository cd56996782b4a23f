import Keyring.Failure.Basic
import Keyring.Host
import Keyring.Log
import Keyring.Text.Lower
/-!
# Finding metadata files

`scan` lists the candidates of a directory: the visible regular files whose name ends in the
extension, whatever the case of its letters, in the order of their names. A directory that is
missing or cannot be listed has none. Hidden files with the extension are logged.
-/

namespace Keyring

open Log

/-- A file that may hold metadata. -/
structure Candidate where
  path : Path
  /-- The extension it was found by. -/
  extension : String
  deriving DecidableEq

namespace Scan

/-! ## Extensions -/

/-- The failure of an empty extension. -/
def emptyExtension : Failure :=
  .ofText .value "File extension must be a non-empty string"

/-- Drops one leading dot. -/
def dropDot : List Char → List Char
  | '.' :: cs => cs
  | cs => cs

/-- An extension in small letters, without white space around it and one leading dot. -/
def normaliseExtension (extension : String) : Except Failure String :=
  let cs := dropDot (Text.strip extension.toList)
  if cs.isEmpty then .error emptyExtension else .ok (Text.lower (String.ofList cs))

/-- Whether a file name ends in a dot and the extension. -/
def hasExtension (extension name : String) : Bool :=
  ('.' :: extension.toList).isSuffixOf (Text.lower name).toList

/-! ## Hidden files -/

/-- The attributes that some systems give files: a set of bits each, which may be missing. -/
structure Attributes where
  attributes? : Option Int := none
  flags? : Option Int := none

/-- Whether the bit of weight `weight` is set in a number that may be negative. -/
def hasBit (weight : Nat) (n : Int) : Bool :=
  (n.fdiv weight).fmod 2 = 1

/-- Whether attributes say that a file is hidden. -/
def Attributes.hidden (a : Attributes) : Bool :=
  a.attributes?.any (hasBit 2) || a.flags?.any (hasBit 0x8000)

/-- Whether a name starts with a dot. -/
def isDotName (name : String) : Bool :=
  name.toList.head? = some '.'

/-- Whether a file is hidden: its name starts with a dot, or its attributes say so. Attributes that
the file system refuses to give hide nothing. -/
def isHidden (p : Path) (attributes : Except Failure Attributes) : Except Failure Bool :=
  if isDotName p.name then .ok true
  else
    match attributes with
    | .ok a => .ok a.hidden
    | .error f => if f.kind.isOs then .ok false else .error f

/-- The attributes of a file of the host, which has none. -/
def attributesOf (p : Path) : Except Failure Attributes :=
  if hasNul (toString p) then .error nulFailure else .ok {}

/-- Whether a scan passes a file over as hidden. A directory that can be listed and its names have no
NUL, so the attributes are never refused. -/
def passesOver (p : Path) : Bool :=
  (isHidden p (attributesOf p)).toOption.getD false

/-- On a host without attributes the names decide. -/
theorem passesOver_eq (p : Path) : passesOver p = isDotName p.name := by
  unfold passesOver isHidden attributesOf
  cases isDotName p.name <;> cases hasNul (toString p) <;> rfl

/-! ## Directories -/

def logger : String := "signerload.io.scan"

/-- What a path is when a directory is wanted. -/
inductive Target where
  | directory (l : Location)
  | other
  /-- The file system cannot tell. -/
  | refused (r : Refusal)

/-- Looks a directory up. -/
def lookUp (h : Host) (p : Path) : Target :=
  if hasNul (toString p) then .other
  else
    match h.locate p with
    | .found l .directory => .directory l
    | .refused .nameTooLong => .refused .nameTooLong
    | _ => .other

/-- Whether the entry of a directory that is at `l` and called `p` is a regular file, links
followed. -/
def isFile (h : Host) (l : Location) (p : Path) : Bool :=
  match h.files.at? l with
  | some (.file _) => true
  | some (.link _) =>
    match h.locate p with
    | .found _ (.file _) => true
    | _ => false
  | _ => false

/-- What a scan found and logged. -/
structure Result where
  candidates : List Candidate
  log : List Record
  deriving DecidableEq

/-- The names of a directory in the order in which they are scanned. -/
def sortedNames (h : Host) (l : Location) : List String :=
  (h.files.names l).mergeSort fun a b => !(b < a)

/-- What becomes of the entry `name` of the directory `p`, which is at `l`: a candidate, a log
record, or nothing. -/
def entry (h : Host) (extension : String) (l : Location) (p : Path) (name : String) :
    Option Candidate × Option Record :=
  let path := p.child name
  if hasExtension extension name && isFile h (l ++ [name]) path then
    if passesOver path then
      (none, some ⟨logger, .debug, "Skipping hidden metadata file " ++ toString path⟩)
    else (some ⟨path, extension⟩, none)
  else (none, none)

/-- Scans a directory for files with a normalised extension. -/
def directory (h : Host) (p : Path) (extension : String) : Result :=
  match lookUp h p with
  | .other =>
    ⟨[], [⟨logger, .debug, "Metadata directory " ++ toString p ++
      " does not exist or is not a directory"⟩]⟩
  | .refused r =>
    ⟨[], [⟨logger, .warning, "Unable to list metadata directory " ++ toString p ++ ": " ++
      ((r.failure p).message.read.toOption.getD "")⟩]⟩
  | .directory l =>
    let found := (sortedNames h l).map (entry h extension l p)
    ⟨found.filterMap (·.1), found.filterMap (·.2)⟩

end Scan

/-- The candidates of a directory. -/
def scan (h : Host) (directory : Path) (extension : String) : Except Failure Scan.Result := do
  pure (Scan.directory h directory (← Scan.normaliseExtension extension))

end Keyring
