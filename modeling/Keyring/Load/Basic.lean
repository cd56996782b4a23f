import Keyring.Aggregator
import Keyring.Failure.Basic
import Keyring.Log
import Keyring.Scan
/-!
# What a load does with one candidate

Each candidate is handed to a parser. A failure is logged with the message at its root, not raised,
unless it is one that stops the program. What a load as a whole leaves behind is a `Report`.
-/

namespace Keyring.Load

open Log

/-- Turns a metadata file into a credential. -/
abbrev Parser := Path → Except Failure Credential

/-- What a load leaves behind. -/
structure Report where
  result : Except Failure (List Credential)
  log : List Record
  /-- The paths that were handed to the parser. -/
  calls : List Path

/-- The logger of loads. -/
def defaultLogger : String := "signerload.loader"

/-- The record of a failure to load the file at `p`. -/
def failureRecord (logger : String) (p : Path) (message : String) : Record :=
  ⟨logger, .error, "Error loading signer metadata file " ++ toString p ++ ": " ++ message⟩

/-- Logs the failure of a candidate. The message cannot always be had. -/
def reportFailure (logger : String) (p : Path) (f : Failure) : Except Failure Record :=
  f.rootMessage.map (failureRecord logger p)

/-- The record at the end of a load. -/
def summary (logger : String) (loaded found : Nat) (directory : String) : Record :=
  ⟨logger, .info, "Loaded " ++ toString loaded ++ " signer(s) from " ++ toString found ++
    " metadata file(s) in " ++ directory⟩

end Keyring.Load
