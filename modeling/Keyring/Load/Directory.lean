import Keyring.Load.Pool
import Keyring.Load.Sequential
import Keyring.MetadataFile
/-!
# Loading a directory

`load` scans a directory and loads its candidates one after the other or with several workers.
-/

namespace Keyring

/-- How candidates are loaded. -/
inductive Load.Mode where
  /-- One after the other. -/
  | sequential
  /-- With as many workers as are asked for, or with one for each candidate. -/
  | concurrent (workers? : Option Int)
  /-- With workers that an event loop keeps, one for each candidate. -/
  | async
  deriving DecidableEq, Repr

namespace Load

/-- The failure to set a pool up without workers. -/
def noWorkers : Failure :=
  .ofText .value "max_workers must be greater than 0"

/-- Loads candidates that a scan found. One worker for each excludes no order of their moves that
fewer workers would allow. -/
def candidates (mode : Mode) (schedule : List Nat) (logger : String) (parser : Parser)
    (directory : String) (found : List Candidate) : Report :=
  match mode with
  | .sequential => sequential logger parser directory found
  | .concurrent none | .async =>
    concurrent ⟨found.length, logger, parser, found⟩ schedule directory
  | .concurrent (some n) =>
    if n ≤ 0 then ⟨.error noWorkers, [], []⟩
    else concurrent ⟨n.toNat, logger, parser, found⟩ schedule directory

end Load

/-- Loads the credentials of the metadata files in a directory; workers follow the schedule. -/
def load (h : Host) (mode : Load.Mode) (schedule : List Nat) (logger : String)
    (parser : Load.Parser) (directory extension : String) : Load.Report :=
  match scan h (.ofString directory) extension with
  | .error f => ⟨.error f, [], []⟩
  | .ok found =>
    let report := Load.candidates mode schedule logger parser directory found.candidates
    { report with log := found.log ++ report.log }

end Keyring
