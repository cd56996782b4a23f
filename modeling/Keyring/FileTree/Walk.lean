import Keyring.FileTree.Basic
import Keyring.Text.Split
/-!
# Walking a file tree

A walk goes from a directory from name to name and follows symbolic links, at most forty in all.
It ends at an entry that is not a link, at the place of a last name that does not exist, or with
the reason why it cannot go on. What the walk is for matters only where the last link on the way has
a slash at its end.
-/

namespace Keyring

/-- Why the file system refuses a request. -/
inductive Refusal where
  | noEntry
  | notDirectory
  | isDirectory
  | nameTooLong
  | tooManyLinks
  deriving DecidableEq, Repr

namespace FileTree

/-- Where a walk ends. -/
inductive Walk where
  | found (l : Location) (e : Entry)
  /-- The directory exists and has no entry of this name. -/
  | missing (directory : Location) (name : String)
  | refused (r : Refusal)
  deriving DecidableEq, Repr

/-- How far a walk gets without following a link. -/
inductive Stretch where
  | ended (w : Walk)
  /-- A link in `directory`, and the names that follow it. -/
  | link (directory : Location) (target : String) (rest : List String)

/-- The longest name, in bytes. -/
def longestName : Nat := 255

/-- Goes from name to name up to a link. -/
def stretch (t : FileTree) (here : Location) : List String → Stretch
  | [] =>
    match t.at? here with
    | some e => .ended (.found here e)
    | none => .ended (.refused .noEntry)
  | name :: rest =>
    if t.at? here ≠ some .directory then .ended (.refused .notDirectory)
    else if name = "." then t.stretch here rest
    else if name = ".." then t.stretch here.dropLast rest
    else if longestName < name.utf8ByteSize then .ended (.refused .nameTooLong)
    else
      match t.at? (here ++ [name]) with
      | none => .ended (if rest = [] then .missing here name else .refused .noEntry)
      | some (.link target) => .link here target rest
      | some _ => t.stretch (here ++ [name]) rest

/-- The names between the slashes of a path. -/
def bareNamesOf (path : String) : List String :=
  ((Text.split '/' path.toList).map String.ofList).filter (· ≠ "")

def endsInSlash (path : String) : Bool :=
  path.toList.getLast? = some '/'

/-- The names in the text of a path. A slash at the end asks for a directory, as a dot does. -/
def namesOf (path : String) : List String :=
  if endsInSlash path then bareNamesOf path ++ ["."] else bareNamesOf path

/-- Where the text of a path starts. -/
def startOf (path : String) (here : Location) : Location :=
  if path.toList.head? = some '/' then [] else here

/-- What a path is looked up for. -/
inductive Purpose where
  | read
  /-- To write a file, which is made if it is missing. -/
  | write
  deriving DecidableEq, Repr

/-- The names that a walk goes on with after a link, with `rest` behind it. No file that is written can
have a slash behind its name: if the last link on the way has one, its last name is not looked for, and
the walk ends at the directory in which it would be. -/
def Purpose.namesAfter (purpose : Purpose) (target : String) (rest : List String) : List String :=
  if purpose = .write ∧ rest = [] ∧ endsInSlash target then (bareNamesOf target).dropLast ++ ["."]
  else namesOf target ++ rest

@[simp] theorem Purpose.namesAfter_read (target : String) (rest : List String) :
    Purpose.read.namesAfter target rest = namesOf target ++ rest := rfl

/-- Goes from name to name and follows up to `links` links. -/
def walkFor (t : FileTree) (purpose : Purpose) :
    (links : Nat) → (here : Location) → List String → Walk
  | 0, here, names =>
    match t.stretch here names with
    | .ended w => w
    | .link _ _ _ => .refused .tooManyLinks
  | links + 1, here, names =>
    match t.stretch here names with
    | .ended w => w
    | .link directory target rest =>
      t.walkFor purpose links (startOf target directory) (purpose.namesAfter target rest)

/-- Goes from name to name to read what is there. -/
abbrev walk (t : FileTree) (links : Nat) (here : Location) (names : List String) : Walk :=
  t.walkFor .read links here names

/-- The number of links that a walk follows. -/
def mostLinks : Nat := 40

end FileTree

end Keyring
