import Keyring.Load.Basic
/-!
# Loading one file after the other

All candidates are parsed in their order, then the failures are logged in that order.
-/

namespace Keyring.Load

open Log

/-- The outcomes of parsing candidates in turn, up to a failure that stops the program, and the
paths handed to the parser. -/
def parseAll (parser : Parser) :
    List Candidate → Except Failure (List (Except Failure Credential)) × List Path
  | [] => (.ok [], [])
  | c :: cs =>
    match parser c.path with
    | .ok credential =>
      let (rest, calls) := parseAll parser cs
      (rest.map (.ok credential :: ·), c.path :: calls)
    | .error f =>
      if f.kind = .fatal then (.error f, [c.path])
      else
        let (rest, calls) := parseAll parser cs
        (rest.map (.error f :: ·), c.path :: calls)

/-- Logs the failures among outcomes, up to one whose message cannot be had. -/
def reportAll (logger : String) :
    List (Candidate × Except Failure Credential) → List Record × Option Failure
  | [] => ([], none)
  | (_, .ok _) :: rest => reportAll logger rest
  | (c, .error f) :: rest =>
    match reportFailure logger c.path f with
    | .error g => ([], some g)
    | .ok record =>
      let (records, stop?) := reportAll logger rest
      (record :: records, stop?)

/-- Loads candidates one after the other. -/
def sequential (logger : String) (parser : Parser) (directory : String)
    (candidates : List Candidate) : Report :=
  match parseAll parser candidates with
  | (.error f, calls) => ⟨.error f, [], calls⟩
  | (.ok outcomes, calls) =>
    match reportAll logger (candidates.zip outcomes) with
    | (records, some f) => ⟨.error f, records, calls⟩
    | (records, none) =>
      let a := Aggregator.empty.collect (outcomes.map Except.toOption)
      ⟨.ok a.results, records ++ [summary logger a.size candidates.length directory], calls⟩

end Keyring.Load
