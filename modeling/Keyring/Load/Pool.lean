import Keyring.Load.Basic
/-!
# Loading with several workers

A pool has one job for each candidate. A worker takes the first job that waits, if fewer jobs than
there are workers are under way; it parses the file, and then adds the credential or logs the
failure. Which job makes its next move when is up to a schedule: a list of job numbers, each
entry of which lets that job make one move if it can. After the schedule the jobs that are left
finish in their order, so every schedule leads to an end.

A job that cannot log its failure ends with a failure of its own, which is logged after all jobs
have ended. A failure that stops the program only ends its job.
-/

namespace Keyring.Load

open Log

/-- How far a job is. -/
inductive Job where
  /-- It waits for a worker. -/
  | waiting
  /-- A worker has taken it. -/
  | taken
  /-- The file has been parsed. -/
  | parsed (outcome : Except Failure Credential)
  /-- It has ended, with a failure of its own or without. -/
  | ended (failure? : Option Failure)

/-- A worker is busy with the job. -/
def Job.underWay : Job → Bool
  | .taken | .parsed _ => true
  | _ => false

def Job.isWaiting : Job → Bool
  | .waiting => true
  | _ => false

/-- A pool at some moment. -/
structure Pool where
  jobs : List Job
  aggregator : Aggregator
  log : List Record
  /-- The paths handed to the parser, in that order. -/
  calls : List Path

/-- What a pool works with. -/
structure Crew where
  workers : Nat
  logger : String
  parser : Parser
  candidates : List Candidate

namespace Pool

/-- A pool whose jobs all wait. -/
def start (crew : Crew) : Pool where
  jobs := crew.candidates.map fun _ => .waiting
  aggregator := .empty
  log := []
  calls := []

/-- Whether a worker can take job `i`: it is the first that waits, and a worker is free. -/
def canTake (crew : Crew) (pool : Pool) (i : Nat) : Bool :=
  (pool.jobs.take i).all (!·.isWaiting) && pool.jobs.countP (·.underWay) < crew.workers

/-- Gives job `i` a new state. -/
def setJob (pool : Pool) (i : Nat) (j : Job) : Pool :=
  { pool with jobs := pool.jobs.set i j }

/-- Ends a job whose file at `p` has been parsed. -/
def finish (crew : Crew) (pool : Pool) (i : Nat) (p : Path) :
    Except Failure Credential → Pool
  | .ok credential =>
    { pool.setJob i (.ended none) with aggregator := pool.aggregator.add credential }
  | .error f =>
    if f.kind = .fatal then pool.setJob i (.ended (some f))
    else
      match reportFailure crew.logger p f with
      | .ok record => { pool.setJob i (.ended none) with log := pool.log ++ [record] }
      | .error g => pool.setJob i (.ended (some g))

/-- Lets job `i` make its next move, if it can. -/
def move (crew : Crew) (pool : Pool) (i : Nat) : Pool :=
  match pool.jobs[i]?, crew.candidates[i]? with
  | some .waiting, some _ => if canTake crew pool i then pool.setJob i .taken else pool
  | some .taken, some c =>
    { pool.setJob i (.parsed (crew.parser c.path)) with calls := pool.calls ++ [c.path] }
  | some (.parsed outcome), some c => finish crew pool i c.path outcome
  | _, _ => pool

/-- Follows a schedule. -/
def follow (crew : Crew) (schedule : List Nat) (pool : Pool) : Pool :=
  schedule.foldl (move crew) pool

/-- The schedule that finishes `n` jobs in their order: three moves each. -/
def inOrder (n : Nat) : List Nat :=
  (List.range n).flatMap fun i => [i, i, i]

/-- Follows a schedule and then finishes what is left. -/
def run (crew : Crew) (schedule : List Nat) : Pool :=
  follow crew (schedule ++ inOrder crew.candidates.length) (start crew)

/-- Logs the failures of the jobs themselves, up to one whose message cannot be had. -/
def reportEnds (logger : String) : List (Candidate × Job) → List Record × Option Failure
  | [] => ([], none)
  | (c, .ended (some f)) :: rest =>
    if f.kind = .fatal then reportEnds logger rest
    else
      match reportFailure logger c.path f with
      | .error g => ([], some g)
      | .ok record =>
        let (records, stop?) := reportEnds logger rest
        (record :: records, stop?)
  | _ :: rest => reportEnds logger rest

end Pool

/-- Loads candidates with several workers, which follow a schedule. -/
def concurrent (crew : Crew) (schedule : List Nat) (directory : String) : Report :=
  let pool := Pool.run crew schedule
  match Pool.reportEnds crew.logger (crew.candidates.zip pool.jobs) with
  | (records, some f) => ⟨.error f, pool.log ++ records, pool.calls⟩
  | (records, none) =>
    ⟨.ok pool.aggregator.results,
      pool.log ++ records ++
        [summary crew.logger pool.aggregator.size crew.candidates.length directory],
      pool.calls⟩

end Keyring.Load
