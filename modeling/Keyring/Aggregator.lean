import Keyring.Credential
/-!
# Collecting credentials

An aggregator holds the credentials that have been loaded, in the order in which they came.
-/

namespace Keyring

structure Aggregator where
  items : List Credential

namespace Aggregator

def empty : Aggregator := ⟨[]⟩

/-- Adds a credential. -/
def add (a : Aggregator) (c : Credential) : Aggregator :=
  ⟨a.items ++ [c]⟩

/-- Adds the credentials among the outcomes of several loads. -/
def collect (a : Aggregator) (outcomes : List (Option Credential)) : Aggregator :=
  outcomes.foldl (fun a o => (o.map a.add).getD a) a

/-- The credentials so far. -/
def results (a : Aggregator) : List Credential :=
  a.items

def size (a : Aggregator) : Nat :=
  a.items.length

@[simp] theorem results_add (a : Aggregator) (c : Credential) :
    (a.add c).results = a.results ++ [c] := rfl

theorem results_collect (a : Aggregator) (outcomes : List (Option Credential)) :
    (a.collect outcomes).results = a.results ++ outcomes.filterMap id := by
  unfold collect
  induction outcomes generalizing a with
  | nil => simp
  | cons o os ih =>
    cases o with
    | none => simpa using ih a
    | some c => simpa using ih (a.add c)

theorem size_eq_length_results (a : Aggregator) : a.size = a.results.length := rfl

end Aggregator

end Keyring
