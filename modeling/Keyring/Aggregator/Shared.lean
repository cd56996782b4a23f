import Keyring.Aggregator
/-!
# An aggregator for several threads

Threads share an aggregator under a lock. A thread makes its calls one after the other. A call gets
at the aggregator in one or more accesses, each of which takes the lock and gives it back: adding a
credential is one access, and so is taking a copy of the credentials, or their number. A call that
collects makes an access for each credential, and then one for the copy that it returns.

An access is two moves. The thread takes the lock and reads what the aggregator holds; then it stores
what it makes of that, if it adds a credential, and gives the lock back. Nothing but the lock keeps
other threads from moving in between. As in a pool, a schedule says which thread makes its next move
when, and an entry for a thread that has to wait for the lock changes nothing.
-/

namespace Keyring.Aggregator

/-- What a thread asks of the aggregator. -/
inductive Call where
  | add (credential : Credential)
  | collect (outcomes : List (Option Credential))
  | results
  | size

/-- What a thread does each time it has the lock. -/
inductive Access where
  | add (credential : Credential)
  | results
  | size

/-- What a thread has done with the lock, and what it was told. -/
inductive Event where
  | added (credential : Credential)
  | listed (credentials : List Credential)
  | counted (size : Nat)

/-- The accesses of a call. What a call returns is what its last access is told. -/
def Call.accesses : Call → List Access
  | .add c => [.add c]
  | .collect outcomes => outcomes.filterMap (Option.map .add) ++ [.results]
  | .results => [.results]
  | .size => [.size]

/-- What an access stores, if it stores anything. -/
def Access.stored? (read : Aggregator) : Access → Option Aggregator
  | .add c => some (read.add c)
  | .results | .size => none

def Access.event (read : Aggregator) : Access → Event
  | .add c => .added c
  | .results => .listed read.results
  | .size => .counted read.size

/-- A thread, with the accesses that it has still to make. -/
inductive Thread where
  /-- It does not have the lock. -/
  | outside (todo : List Access)
  /-- It has the lock, for an access, and has read the aggregator. -/
  | inside (read : Aggregator) (access : Access) (todo : List Access)

def Thread.hasEnded : Thread → Bool
  | .outside [] => true
  | _ => false

/-- An aggregator and its threads at some moment. -/
structure Shared where
  aggregator : Aggregator
  /-- The thread that has the lock. -/
  holder? : Option Nat
  threads : List Thread
  /-- What the threads have done, in the order in which they had the lock. -/
  history : List (Nat × Event)

namespace Shared

/-- An empty aggregator for threads that make the calls of their programs. -/
def start (programs : List (List Call)) : Shared where
  aggregator := .empty
  holder? := none
  threads := programs.map fun calls => .outside (calls.flatMap Call.accesses)
  history := []

/-- Lets thread `i` make its next move, if it can. -/
def move (shared : Shared) (i : Nat) : Shared :=
  match shared.threads[i]? with
  | some (.outside (access :: todo)) =>
    if shared.holder?.isSome then shared
    else
      { shared with
        holder? := some i
        threads := shared.threads.set i (.inside shared.aggregator access todo) }
  | some (.inside read access todo) =>
    { aggregator := (access.stored? read).getD shared.aggregator
      holder? := none
      threads := shared.threads.set i (.outside todo)
      history := shared.history ++ [(i, access.event read)] }
  | _ => shared

/-- Follows a schedule. -/
def follow (schedule : List Nat) (shared : Shared) : Shared :=
  schedule.foldl move shared

/-- All threads have made all their calls. -/
def isFinished (shared : Shared) : Bool :=
  shared.threads.all Thread.hasEnded

end Shared

end Keyring.Aggregator
