import Keyring.Path
import Keyring.Text.Quoted
/-!
# Credentials

A credential is a signing identity. What may be shown of it are its identifier, its type and the
two files it comes from: they decide equality (`same`), they are what `describe` spells out, and
they make up the `record` that is written; a set of credentials (`distinct`) tells them apart by
these. The secret and the password take part in none of it.
-/

namespace Keyring

structure Credential where
  /-- The public key in hex. -/
  identifier : String
  keyType : String
  /-- The metadata file. -/
  source? : Option Path := none
  secret? : Option (List UInt8) := none
  keystoreFile? : Option Path := none
  keystorePassword? : Option String := none
  deriving DecidableEq

namespace Credential

/-- Whether two credentials are the same identity. -/
def same (a b : Credential) : Bool :=
  a.identifier = b.identifier && a.keyType = b.keyType && a.source? = b.source? &&
    a.keystoreFile? = b.keystoreFile?

/-- The fields that decide equality. -/
def compared (c : Credential) : String × String × Option Path × Option Path :=
  (c.identifier, c.keyType, c.source?, c.keystoreFile?)

/-- Whether a set has a credential: only members with the same hash are compared with it. -/
def isAmong (hash : String × String × Option Path × Option Path → Int) (c : Credential)
    (members : List Credential) : Bool :=
  members.any fun d => hash d.compared == hash c.compared && d.same c

/-- The members of a set that is made of credentials; `hash` is a hash of the fields that decide
equality. -/
def distinct (hash : String × String × Option Path × Option Path → Int) (cs : List Credential) :
    List Credential :=
  cs.foldl (fun members c => if isAmong hash c members then members else members ++ [c]) []

/-- A path that may be missing, spelled out. -/
def describePath : Option Path → String
  | none => "None"
  | some p => "PosixPath(" ++ Text.quoted (toString p) ++ ")"

/-- A credential spelled out. -/
def describe (c : Credential) : String :=
  "SigningCredential(identifier=" ++ Text.quoted c.identifier ++
    ", key_type=" ++ Text.quoted c.keyType ++
    ", source=" ++ describePath c.source? ++
    ", keystore_file=" ++ describePath c.keystoreFile? ++ ")"

/-- All that is shown of a credential, by name. -/
def shown (c : Credential) : List (String × String) :=
  [("identifier", c.identifier), ("key_type", c.keyType)] ++
    (c.source?.map fun p => ("source", toString p)).toList ++
    (c.keystoreFile?.map fun p => ("keystore_file", toString p)).toList

/-- What is shown of a credential, restricted to the names in `fields` if there are any. -/
def record (c : Credential) (fields : List String) : List (String × String) :=
  if fields.isEmpty then c.shown else c.shown.filter fun e => fields.contains e.1

end Credential

end Keyring
