import Keyring.Handler.Basic
/-!
# Key pairs in the metadata

The metadata hold the secret and the public key in hex.
-/

namespace Keyring.Handler

/-- The bytes of a secret key. -/
def secretLength : Nat := 32

/-- The bytes of a public key, a compressed point. -/
def publicLength : Nat := 48

/-- How a public key identifies a credential. -/
def identifierOf (key : List UInt8) : String :=
  "0x" ++ Hex.encode key

/-- The credential of a key pair in the metadata. -/
def createRaw (m : Metadata) (source : Path) : Except Failure Credential := do
  let secret ← Metadata.decodeHex "privateKey" secretLength (← m.require "privateKey")
  let key ← Metadata.decodeHex "publicKey" publicLength (← m.require "publicKey")
  pure {
    identifier := identifierOf key
    keyType := "file-raw"
    source? := some source
    secret? := some secret }

/-- The handler of key pairs in the metadata. -/
def raw : Handler where
  number := 0
  name := "RawKeyHandler"
  types := ["file-raw"]
  priority := 10
  create := fun _ m _ source => createRaw m source

end Keyring.Handler
