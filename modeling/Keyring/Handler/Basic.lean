import Keyring.Credential
import Keyring.Metadata
/-!
# Handlers

A handler turns a metadata mapping of certain types into a credential. Handlers of one type are
preferred by priority and then by name; two handlers are the same if they have the same number.
-/

namespace Keyring

structure Handler where
  /-- Tells handlers apart that have the same name. -/
  number : Nat
  name : String
  /-- The metadata types it takes. -/
  types : List String
  /-- The lower, the more it is preferred. -/
  priority : Int
  /-- Builds a credential from a mapping that was read from `source` in `baseDir`. -/
  create : (h : Host) → (m : Metadata) → (baseDir source : Path) → Except Failure Credential

end Keyring
