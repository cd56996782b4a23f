import Keyring.Proofs.Load.Fate
import Mathlib.Logic.Relation
/-!
# The steps of a pool

`Step` lists what can happen next in a pool: a worker takes the first job that waits, parses its
file, adds the credential or logs the failure, or ends the job with a failure of its own. A schedule
names jobs, and an entry for a job that cannot move changes nothing, so schedules are exactly the
interleavings of steps (`steps_iff_schedule`). What every step keeps, every schedule keeps
(`inv_follow`).
-/

namespace Keyring.Load.Pool

open Log

/-- The failure that a job ends with. -/
def ending : Except Failure Credential → Option Failure
  | .ok _ => none
  | .error f =>
    if f.kind = .fatal then some f
    else
      match f.rootMessage with
      | .ok _ => none
      | .error g => some g

/-- One step of one worker, with job `i`. -/
inductive Step (crew : Crew) (pool : Pool) (i : Nat) : Pool → Prop
  | take {c} : pool.jobs[i]? = some .waiting → crew.candidates[i]? = some c →
      canTake crew pool i = true → Step crew pool i (pool.setJob i .taken)
  | parse {c} : pool.jobs[i]? = some .taken → crew.candidates[i]? = some c →
      Step crew pool i
        { pool.setJob i (.parsed (crew.parser c.path)) with calls := pool.calls ++ [c.path] }
  | add {c credential} : pool.jobs[i]? = some (.parsed (.ok credential)) →
      crew.candidates[i]? = some c →
      Step crew pool i
        { pool.setJob i (.ended none) with aggregator := pool.aggregator.add credential }
  | log {c f m} : pool.jobs[i]? = some (.parsed (.error f)) → crew.candidates[i]? = some c →
      f.kind ≠ .fatal → f.rootMessage = .ok m →
      Step crew pool i
        { pool.setJob i (.ended none) with
          log := pool.log ++ [failureRecord crew.logger c.path m] }
  | fail {c f g} : pool.jobs[i]? = some (.parsed (.error f)) → crew.candidates[i]? = some c →
      ending (.error f) = some g → Step crew pool i (pool.setJob i (.ended (some g)))

variable {crew : Crew} {pool pool' : Pool} {i : Nat}

theorem finish_of_fatal {p : Path} {f : Failure} (hk : f.kind = .fatal) :
    finish crew pool i p (.error f) = pool.setJob i (.ended (some f)) :=
  if_pos hk

theorem finish_of_ok {p : Path} {f : Failure} {m : String} (hk : f.kind ≠ .fatal)
    (hm : f.rootMessage = .ok m) :
    finish crew pool i p (.error f) =
      { pool.setJob i (.ended none) with log := pool.log ++ [failureRecord crew.logger p m] } := by
  rw [finish, if_neg hk, reportFailure, hm]; rfl

theorem finish_of_error {p : Path} {f g : Failure} (hk : f.kind ≠ .fatal)
    (hm : f.rootMessage = .error g) :
    finish crew pool i p (.error f) = pool.setJob i (.ended (some g)) := by
  rw [finish, if_neg hk, reportFailure, hm]; rfl

theorem ending_of_fatal {f : Failure} (hk : f.kind = .fatal) : ending (.error f) = some f :=
  if_pos hk

theorem ending_of_ok {f : Failure} {m : String} (hk : f.kind ≠ .fatal)
    (hm : f.rootMessage = .ok m) : ending (.error f) = none := by
  rw [ending, if_neg hk, hm]

theorem ending_of_error {f g : Failure} (hk : f.kind ≠ .fatal) (hm : f.rootMessage = .error g) :
    ending (.error f) = some g := by
  rw [ending, if_neg hk, hm]

theorem finish_step {c : Candidate} {o : Except Failure Credential}
    (hj : pool.jobs[i]? = some (.parsed o)) (hc : crew.candidates[i]? = some c) :
    Step crew pool i (finish crew pool i c.path o) := by
  cases o with
  | ok credential => exact .add hj hc
  | error f =>
    rcases failure_cases f with hk | ⟨hk, m, hm⟩ | ⟨hk, g, hm⟩
    · rw [finish_of_fatal hk]
      exact .fail hj hc (ending_of_fatal hk)
    · rw [finish_of_ok hk hm]
      exact .log hj hc hk hm
    · rw [finish_of_error hk hm]
      exact .fail hj hc (ending_of_error hk hm)

/-- A move is a step or none. -/
theorem move_cases (crew : Crew) (pool : Pool) (i : Nat) :
    move crew pool i = pool ∨ Step crew pool i (move crew pool i) := by
  unfold move
  split
  · next hj hc =>
    split
    · next ht => exact .inr (.take hj hc ht)
    · exact .inl rfl
  · next hj hc => exact .inr (.parse hj hc)
  · next hj hc => exact .inr (finish_step hj hc)
  · exact .inl rfl

/-- Every step is the move of its job. -/
theorem Step.move_eq (h : Step crew pool i pool') : move crew pool i = pool' := by
  cases h with
  | take hj hc ht => simp [move, hj, hc, ht]
  | parse hj hc => simp [move, hj, hc]
  | add hj hc => simp [move, hj, hc, finish]
  | log hj hc hk hm => simp [move, hj, hc, finish_of_ok hk hm]
  | @fail c f g hj hc he =>
    have hmove : move crew pool i = finish crew pool i c.path (.error f) := by simp [move, hj, hc]
    rw [hmove]
    rcases failure_cases f with hk | ⟨hk, m, hm⟩ | ⟨hk, g', hm⟩
    · rw [ending_of_fatal hk] at he
      rw [finish_of_fatal hk, Option.some.inj he]
    · rw [ending_of_ok hk hm] at he
      cases he
    · rw [ending_of_error hk hm] at he
      rw [finish_of_error hk hm, Option.some.inj he]

/-! ## Schedules -/

@[simp] theorem follow_nil (crew : Crew) (pool : Pool) : follow crew [] pool = pool := rfl

@[simp] theorem follow_cons (crew : Crew) (i : Nat) (schedule : List Nat) (pool : Pool) :
    follow crew (i :: schedule) pool = follow crew schedule (move crew pool i) := rfl

theorem follow_append (crew : Crew) (s t : List Nat) (pool : Pool) :
    follow crew (s ++ t) pool = follow crew t (follow crew s pool) :=
  List.foldl_append

/-- What no step breaks holds after every schedule. -/
theorem inv_follow {P : Pool → Prop}
    (hstep : ∀ {pool i pool'}, P pool → Step crew pool i pool' → P pool') (h : P pool)
    (schedule : List Nat) : P (follow crew schedule pool) := by
  induction schedule generalizing pool with
  | nil => exact h
  | cons i schedule ih =>
    rw [follow_cons]
    rcases move_cases crew pool i with e | hs
    · exact ih (e.symm ▸ h)
    · exact ih (hstep h hs)

/-- Any number of steps, of any jobs. -/
def Steps (crew : Crew) : Pool → Pool → Prop :=
  Relation.ReflTransGen fun pool pool' => ∃ i, Step crew pool i pool'

theorem steps_iff_schedule :
    Steps crew pool pool' ↔ ∃ schedule, follow crew schedule pool = pool' := by
  constructor
  · intro h
    -- A schedule is followed from its head, so the steps are taken off at that end.
    induction h using Relation.ReflTransGen.head_induction_on with
    | refl => exact ⟨[], rfl⟩
    | head hs _ ih =>
      obtain ⟨i, hs⟩ := hs
      obtain ⟨schedule, h⟩ := ih
      exact ⟨i :: schedule, by rw [follow_cons, hs.move_eq, h]⟩
  · rintro ⟨schedule, rfl⟩
    exact inv_follow (P := Steps crew pool) (fun h hs => h.tail ⟨_, hs⟩) .refl schedule

end Keyring.Load.Pool
