import Keyring.Handler.Raw
import Keyring.Json.Reader
/-!
# Keystores

The metadata name a keystore, which is a JSON object, and a file with its password. Of the keystore
only the public key is read; its secret stays encrypted.
-/

namespace Keyring.Handler

open Metadata (failure)

/-- The failure that a text which is not JSON amounts to. -/
def jsonFailure (text : List Char) (flaw : Json.Flaw) : Failure :=
  .ofText
    (match flaw with
      | .at _ _ => .json
      | .tooLong _ => .value)
    (flaw.message text)

/-- What a keystore file holds. -/
def readJson (h : Host) (p : Path) : Except Failure Json.Value := do
  let text ← h.readText p
  match Json.read text with
  | .ok v => pure v
  | .error flaw => throw (jsonFailure text flaw)

/-- The failure to read a keystore file, for the reason `f`. -/
def keystoreFailure (p : Path) (f : Failure) : Failure :=
  if f.kind.isOs then f.wrap .metadata ("Unable to read keystore file " ++ toString p)
  else if f.kind.isValue then
    f.wrap .metadata ("Keystore file " ++ toString p ++ " is not valid JSON")
  else f

/-- Whether a value is an object. -/
def isObject (v : Json.Value) : Bool :=
  v.members?.isSome

/-- The public key of a keystore. -/
def keystorePublicKey (p : Path) (v : Json.Value) : Except Failure (List UInt8) := do
  match v.members? with
  | none => throw (failure ("Keystore file " ++ toString p ++ " is not a JSON object"))
  | some members =>
    if !(v.get? "crypto").any isObject then
      throw (failure ("Keystore file " ++ toString p ++ " has no crypto section"))
    Metadata.decodeHex "pubkey" publicLength (← (Metadata.ofMembers members).require "pubkey")

/-- The failure to read a password file, for the reason `f`. -/
def passwordFailure (p : Path) (f : Failure) : Failure :=
  if f.kind.isOs then f.wrap .metadata ("Unable to read keystore password file " ++ toString p)
  else f

/-- The password in a file: its text without the line ends at its end. -/
def readPassword (h : Host) (p : Path) : Except Failure String := do
  let text ← (h.readText p).mapError (passwordFailure p)
  pure (String.ofList (Text.trimLineEnds text))

/-- The credential of a keystore. -/
def createKeystore (h : Host) (m : Metadata) (baseDir source : Path) :
    Except Failure Credential := do
  let keystoreFile ← Metadata.resolve h baseDir (← m.require "keystoreFile")
  let passwordFile ← Metadata.resolve h baseDir (← m.require "keystorePasswordFile")
  let v ← (readJson h keystoreFile).mapError (keystoreFailure keystoreFile)
  let key ← keystorePublicKey keystoreFile v
  let password ← readPassword h passwordFile
  pure {
    identifier := identifierOf key
    keyType := "file-keystore"
    source? := some source
    keystoreFile? := some keystoreFile
    keystorePassword? := some password }

/-- The handler of keystores. -/
def keystore : Handler where
  number := 1
  name := "KeystoreHandler"
  types := ["file-keystore"]
  priority := 20
  create := createKeystore

end Keyring.Handler
