import Keyring.Registry
import Keyring.Yaml.Document
/-!
# Metadata files

`MetadataFile.load` reads a metadata file: its text is YAML, the topmost value must be a mapping, and
its `type` chooses the handler that builds the credential. Failures to read the file, faults of the
YAML text and failures of the handler are wrapped in a failure that names the file; the failures of a
value that cannot be built and of a text that is looked for without end are not.
-/

namespace Keyring.MetadataFile

open Metadata (failure)

/-- The failure to read a metadata file, for the reason `f`. -/
def readFailure (p : Path) (f : Failure) : Failure :=
  if f.kind.isOs || f.kind = .decoding then
    f.wrap .metadata ("Unable to read metadata file " ++ toString p)
  else f

/-- The failure to read the YAML text of a metadata file. -/
def yamlFailure (p : Path) (f : Failure) : Failure :=
  if f.kind.isYaml then f.wrap .metadata ("Invalid YAML in metadata file " ++ toString p) else f

/-- The failure of a handler. -/
def handlerFailure (p : Path) (f : Failure) : Failure :=
  if f.kind.isMetadata || f.kind = .fatal then f
  else f.wrap .metadata ("Failed to create signer from " ++ toString p)

/-- The document in a YAML text. -/
def readDocument (p : Path) (text : List Char) : Except Failure Yaml.Document :=
  match Yaml.Document.read text with
  | .ok d => .ok d
  | .error fault => .error (yamlFailure p (fault.toFailure text))

/-- The mapping that a document is. -/
def mappingOf (p : Path) (d : Yaml.Document) : Except Failure Metadata :=
  match d.entries? with
  | some _ => .ok ⟨d.get?⟩
  | none => .error (failure ("Metadata file " ++ toString p ++ " does not contain a mapping"))

/-- Builds the credential of a metadata mapping. -/
def create (r : Registry) (h : Host) (p : Path) (m : Metadata) : Except Failure Credential := do
  match m.get? "type" with
  | none => throw (failure ("Metadata file " ++ toString p ++ " has no 'type'"))
  | some type =>
    let handler ← r.choose type
    (handler.create h m p.parent p).mapError (handlerFailure p)

/-- Reads a metadata file. -/
def load (r : Registry) (h : Host) (p : Path) : Except Failure Credential := do
  let text ← (h.readText p).mapError (readFailure p)
  let m ← mappingOf p (← readDocument p text)
  create r h p m

/-- The files that a metadata file refers to. -/
def references (h : Host) (p : Path) : List Path :=
  let found := do
    let m ← mappingOf p (← readDocument p (← h.readText p))
    pure (["keystoreFile", "keystorePasswordFile"].filterMap fun key =>
      ((m.require key).bind (Metadata.resolve h p.parent)).toOption)
  (found : Except Failure (List Path)).toOption.getD []

end Keyring.MetadataFile
