import Keyring.Proofs.Load.Steps
/-!
# What a pool leaves behind

`Kept` is the invariant of a pool: every job is where its candidate's outcome has brought it, the
jobs that wait come last, and the credentials, the records and the calls are those of the jobs that
have got so far, in some order. It holds at the start (`kept_start`), every step keeps it
(`kept_step`), and a run ends with every job ended (`done_run`). So a load with several workers
settles every candidate, whatever the schedule is (`concurrent_settles`). Schedules reach every end
that the workers can come to (`exists_run_of_steps`), and so do those of one worker for each
candidate, however many there are (`steps_of_workers`).
-/

namespace Keyring.Load

open Log

namespace Pool

/-! ## Lists of which one element changes -/

section Lists
variable {α β : Type}

theorem zip_set {as : List α} {bs : List β} {i : Nat} {a : α} (h : as[i]? = some a) (b : β) :
    as.zip (bs.set i b) = (as.zip bs).set i (a, b) := by
  induction as generalizing bs i with
  | nil => simp at h
  | cons x as ih =>
    cases bs with
    | nil => simp
    | cons y bs =>
      cases i with
      | zero => simp_all
      | succ i => simpa using ih (by simpa using h)

/-- What the changed element adds is added to the collected values. -/
theorem filterMap_set {l : List α} {i : Nat} {a b : α} (h : l[i]? = some a) {f : α → Option β}
    {new : List β} (hnew : (f b).toList = (f a).toList ++ new) :
    ((l.set i b).filterMap f).Perm (l.filterMap f ++ new) := by
  have hcons : ∀ x (l : List α), (x :: l).filterMap f = (f x).toList ++ l.filterMap f := by
    intro x l
    cases hx : f x <;> simp [hx]
  induction l generalizing i with
  | nil => simp at h
  | cons x l ih =>
    cases i with
    | zero =>
      obtain rfl : x = a := by simpa using h
      rw [List.set_cons_zero, hcons, hcons, hnew, List.append_assoc, List.append_assoc]
      exact List.perm_append_comm.append_left _
    | succ i =>
      rw [List.set_cons_succ, hcons, hcons, List.append_assoc]
      exact (ih (by simpa using h)).append_left _

/-- Values collected in two passes, where no element gives one in both. -/
theorem filterMap_or {l : List α} {f g : α → Option β} (h : ∀ a ∈ l, f a = none ∨ g a = none) :
    (l.filterMap f ++ l.filterMap g).Perm (l.filterMap fun a => (f a).or (g a)) := by
  induction l with
  | nil => simp
  | cons a l ih =>
    have ih := ih fun b hb => h b (List.mem_cons_of_mem _ hb)
    cases hf : f a with
    | none =>
      cases hg : g a with
      | none => simpa [hf, hg] using ih
      | some y => simpa [hf, hg] using List.perm_middle.trans (ih.cons y)
    | some y =>
      have hg : g a = none := (h a List.mem_cons_self).resolve_left (by simp [hf])
      simpa [hf, hg] using ih.cons y

end Lists

/-! ## What a job has done -/

/-- A job is where the outcome of its candidate has brought it. -/
def Fits (crew : Crew) (c : Candidate) : Job → Prop
  | .waiting | .taken => True
  | .parsed o => o = crew.parser c.path
  | .ended f? => f? = ending (crew.parser c.path)

/-- The path that a job has handed to the parser. -/
def called : Candidate × Job → Option Path
  | (c, .parsed _) | (c, .ended _) => some c.path
  | _ => none

/-- The credential that a job has added. -/
def added (crew : Crew) : Candidate × Job → Option Credential
  | (c, .ended _) => (crew.parser c.path).toOption
  | _ => none

/-- The record that a worker logs for an outcome. -/
def firstRecord (logger : String) (p : Path) : Except Failure Credential → Option Record
  | .ok _ => none
  | .error f => (Fate.attempted logger p f).record?

/-- The record that a job has logged. -/
def logged (crew : Crew) : Candidate × Job → Option Record
  | (c, .ended _) => firstRecord crew.logger c.path (crew.parser c.path)
  | _ => none

/-- The jobs with their candidates. -/
def work (crew : Crew) (pool : Pool) : List (Candidate × Job) :=
  crew.candidates.zip pool.jobs

/-- Jobs that wait come last. -/
def Queued (jobs : List Job) : Prop :=
  ∀ a b : Nat, a < b → jobs[a]? = some Job.waiting → ∀ j, jobs[b]? = some j → j = Job.waiting

structure Kept (crew : Crew) (pool : Pool) : Prop where
  length_eq : pool.jobs.length = crew.candidates.length
  fits : ∀ e ∈ work crew pool, Fits crew e.1 e.2
  queued : Queued pool.jobs
  credentials : pool.aggregator.results.Perm ((work crew pool).filterMap (added crew))
  records : pool.log.Perm ((work crew pool).filterMap (logged crew))
  calls : pool.calls.Perm ((work crew pool).filterMap called)

variable {crew : Crew} {pool pool' : Pool} {i : Nat}

theorem kept_start (crew : Crew) : Kept crew (start crew) := by
  have hwork : work crew (start crew) = crew.candidates.map fun c => (c, .waiting) := by
    simpa [work, start] using
      List.zip_map' (f := id) (g := fun _ : Candidate => Job.waiting) (l := crew.candidates)
  refine ⟨by simp [start], ?_, ?_, ?_, ?_, ?_⟩
  · rw [hwork]
    intro e he
    obtain ⟨c, -, rfl⟩ := List.mem_map.1 he
    trivial
  · intro a b _ _ j hj
    simp only [start, List.getElem?_map, Option.map_eq_some_iff] at hj
    obtain ⟨_, -, rfl⟩ := hj
    rfl
  all_goals rw [hwork, List.filterMap_map]; simp [start, Aggregator.empty, Aggregator.results,
    Function.comp_def, added, logged, called]

theorem queued_set {jobs : List Job} {a b : Job} (h : Queued jobs) (ha : jobs[i]? = some a)
    (hfirst : a = .waiting → ∀ k < i, jobs[k]? ≠ some .waiting) (hb : b ≠ .waiting) :
    Queued (jobs.set i b) := by
  intro k l hkl hk j hj
  by_cases hki : i = k
  · subst hki
    rw [List.getElem?_set_self (List.getElem?_eq_some_iff.1 ha).1] at hk
    exact absurd (Option.some.inj hk) hb
  · rw [List.getElem?_set_ne hki] at hk
    by_cases hli : i = l
    · subst hli
      exact absurd hk (hfirst (h k i hkl hk a ha) k hkl)
    · rw [List.getElem?_set_ne hli] at hj
      exact h k l hkl hk j hj

theorem fits_of_getElem? (h : Kept crew pool) {c : Candidate} {j : Job}
    (hc : crew.candidates[i]? = some c) (hj : pool.jobs[i]? = some j) : Fits crew c j :=
  h.fits (c, j) (List.mem_of_getElem? (List.getElem?_zip_eq_some.2 ⟨hc, hj⟩))

/-- One job gets further, and what it adds to the three collections is what it stands for. -/
theorem kept_set (h : Kept crew pool) {c : Candidate} {a b : Job}
    (hj : pool.jobs[i]? = some a) (hc : crew.candidates[i]? = some c)
    (hjobs : pool'.jobs = pool.jobs.set i b) (hfits : Fits crew c b) (hb : b ≠ .waiting)
    (hfirst : a = .waiting → ∀ k < i, pool.jobs[k]? ≠ some Job.waiting)
    (credentials : List Credential) (records : List Record) (calls : List Path)
    (hadd : pool'.aggregator.results = pool.aggregator.results ++ credentials)
    (hadded : (added crew (c, b)).toList = (added crew (c, a)).toList ++ credentials)
    (hlog : pool'.log = pool.log ++ records)
    (hlogged : (logged crew (c, b)).toList = (logged crew (c, a)).toList ++ records)
    (hcall : pool'.calls = pool.calls ++ calls)
    (hcalled : (called (c, b)).toList = (called (c, a)).toList ++ calls) : Kept crew pool' := by
  have hwork : work crew pool' = (work crew pool).set i (c, b) := by
    rw [work, hjobs, zip_set hc, work]
  have he : (work crew pool)[i]? = some (c, a) := List.getElem?_zip_eq_some.2 ⟨hc, hj⟩
  refine ⟨by rw [hjobs, List.length_set, h.length_eq], ?_, ?_, ?_, ?_, ?_⟩
  · rw [hwork]
    intro e hm
    rcases List.mem_or_eq_of_mem_set hm with hm | rfl
    · exact h.fits e hm
    · exact hfits
  · rw [hjobs]
    exact queued_set h.queued hj hfirst hb
  · rw [hwork, hadd]
    exact (h.credentials.append_right _).trans (filterMap_set he hadded).symm
  · rw [hwork, hlog]
    exact (h.records.append_right _).trans (filterMap_set he hlogged).symm
  · rw [hwork, hcall]
    exact (h.calls.append_right _).trans (filterMap_set he hcalled).symm

/-- A job that can be taken is the first that waits. -/
theorem ne_waiting_of_canTake (ht : canTake crew pool i = true) {k : Nat} (hk : k < i) :
    pool.jobs[k]? ≠ some Job.waiting := by
  intro hw
  simp only [canTake, Bool.and_eq_true, List.all_eq_true] at ht
  have hmem : Job.waiting ∈ pool.jobs.take i :=
    List.mem_of_getElem? (by rw [List.getElem?_take_of_lt hk, hw])
  simpa [Job.isWaiting] using ht.1 _ hmem

theorem firstRecord_of_ok {logger : String} {p : Path} {f : Failure} {m : String}
    (hk : f.kind ≠ .fatal) (hm : f.rootMessage = .ok m) :
    firstRecord logger p (.error f) = some (failureRecord logger p m) := by
  rw [firstRecord, Fate.attempted_of_ok hk hm]; rfl

theorem firstRecord_of_ending {logger : String} {p : Path} {f g : Failure}
    (h : ending (.error f) = some g) : firstRecord logger p (.error f) = none := by
  rcases failure_cases f with hk | ⟨hk, m, hm⟩ | ⟨hk, i, hm⟩
  · rw [firstRecord, Fate.attempted_of_fatal hk]; rfl
  · rw [ending_of_ok hk hm] at h
    cases h
  · rw [firstRecord, Fate.attempted_of_error hk hm]; rfl

/-- Every step keeps the invariant. -/
theorem kept_step (h : Kept crew pool) (hs : Step crew pool i pool') : Kept crew pool' := by
  -- Only the last three steps add to a collection, and which one depends on the outcome that the
  -- invariant says the job was given.
  cases hs with
  | take hj hc ht =>
    refine kept_set h hj hc rfl trivial (by simp) (fun _ _ hk => ne_waiting_of_canTake ht hk)
      [] [] [] ?_ rfl ?_ rfl ?_ rfl <;> simp [setJob]
  | @parse c hj hc =>
    refine kept_set h hj hc rfl rfl (by simp) (by simp) [] [] [c.path] ?_ rfl ?_ rfl rfl rfl <;>
      simp [setJob]
  | @add c credential hj hc =>
    have ho : .ok credential = crew.parser c.path := fits_of_getElem? h hc hj
    refine kept_set h hj hc rfl ?_ (by simp) (by simp) [credential] [] []
      (Aggregator.results_add _ _) ?_ ?_ ?_ ?_ rfl
    · simp [Fits, ending, ← ho]
    · simp [added, ← ho, Except.toOption]
    · simp [setJob]
    · simp [logged, firstRecord, ← ho]
    · simp [setJob]
  | @log c f m hj hc hk hm =>
    have ho : .error f = crew.parser c.path := fits_of_getElem? h hc hj
    refine kept_set h hj hc rfl ?_ (by simp) (by simp) [] [failureRecord crew.logger c.path m] []
      ?_ ?_ rfl ?_ ?_ rfl
    · simp [Fits, ← ho, ending_of_ok hk hm]
    · simp [setJob]
    · simp [added, ← ho, Except.toOption]
    · simp [logged, ← ho, firstRecord_of_ok hk hm]
    · simp [setJob]
  | @fail c f g hj hc he =>
    have ho : .error f = crew.parser c.path := fits_of_getElem? h hc hj
    refine kept_set h hj hc rfl ?_ (by simp) (by simp) [] [] [] ?_ ?_ ?_ ?_ ?_ rfl
    · simp [Fits, ← ho, he]
    · simp [setJob]
    · simp [added, ← ho, Except.toOption]
    · simp [setJob]
    · simp [logged, ← ho, firstRecord_of_ending he]
    · simp [setJob]

theorem kept_follow (h : Kept crew pool) (schedule : List Nat) :
    Kept crew (follow crew schedule pool) :=
  inv_follow kept_step h schedule

/-! ## Every run ends -/

/-- The moves that a job has left. -/
def movesLeft : Job → Nat
  | .waiting => 3
  | .taken => 2
  | .parsed _ => 1
  | .ended _ => 0

/-- All jobs below `n` have ended. -/
def EndedBelow (n : Nat) (pool : Pool) : Prop :=
  ∀ k < n, ∀ j, pool.jobs[k]? = some j → movesLeft j = 0

theorem finish_jobs (crew : Crew) (pool : Pool) (i : Nat) (p : Path)
    (o : Except Failure Credential) :
    (finish crew pool i p o).jobs = pool.jobs.set i (.ended (ending o)) := by
  cases o with
  | ok credential => rfl
  | error f =>
    rcases failure_cases f with hk | ⟨hk, m, hm⟩ | ⟨hk, g, hm⟩
    · rw [finish_of_fatal hk, ending_of_fatal hk]; rfl
    · rw [finish_of_ok hk hm, ending_of_ok hk hm]; rfl
    · rw [finish_of_error hk hm, ending_of_error hk hm]; rfl

/-- A worker is free for the first job that waits: the jobs before it have ended and those after it
wait. -/
theorem canTake_of_endedBelow (h : Kept crew pool) (hw : 0 < crew.workers)
    (he : EndedBelow i pool) (hj : pool.jobs[i]? = some .waiting) :
    canTake crew pool i = true := by
  have hbefore : ∀ j ∈ pool.jobs.take i, movesLeft j = 0 := by
    intro j hm
    obtain ⟨k, hk⟩ := List.mem_iff_getElem?.1 hm
    rw [List.getElem?_take] at hk
    split at hk
    · next hki => exact he k hki j hk
    · cases hk
  have hafter : ∀ j ∈ pool.jobs.drop i, j = .waiting := by
    intro j hm
    obtain ⟨k, hk⟩ := List.mem_iff_getElem?.1 hm
    rw [List.getElem?_drop] at hk
    rcases Nat.eq_zero_or_pos k with rfl | hpos
    · rw [Nat.add_zero, hj] at hk
      exact (Option.some.inj hk).symm
    · exact h.queued i (i + k) (by omega) hj j hk
  -- What has ended keeps no worker busy, and neither does what waits.
  have hcount : pool.jobs.countP (·.underWay) = 0 := by
    rw [List.countP_eq_zero]
    intro j hm
    rw [← List.take_append_drop i pool.jobs, List.mem_append] at hm
    rcases hm with hm | hm
    · have := hbefore j hm
      cases j <;> simp_all [movesLeft, Job.underWay]
    · rw [hafter j hm]; simp [Job.underWay]
  simp only [canTake, hcount, Bool.and_eq_true, List.all_eq_true, decide_eq_true_eq]
  refine ⟨fun j hm => ?_, hw⟩
  have := hbefore j hm
  cases j <;> simp_all [movesLeft, Job.isWaiting]

/-- A move changes no other job. -/
theorem move_other (crew : Crew) (pool : Pool) {k : Nat} (hk : k ≠ i) :
    (move crew pool i).jobs[k]? = pool.jobs[k]? := by
  rcases move_cases crew pool i with e | hs
  · rw [e]
  · generalize move crew pool i = pool' at hs
    cases hs <;> simp [setJob, List.getElem?_set_ne hk.symm]

/-- The first job that has not ended gets further. -/
theorem move_first (h : Kept crew pool) (hw : 0 < crew.workers) (he : EndedBelow i pool) {j : Job}
    (hj : pool.jobs[i]? = some j) :
    ∃ j', (move crew pool i).jobs[i]? = some j' ∧ movesLeft j' = movesLeft j - 1 := by
  have hi : i < pool.jobs.length := (List.getElem?_eq_some_iff.1 hj).1
  obtain ⟨c, hc⟩ : ∃ c, crew.candidates[i]? = some c :=
    ⟨_, List.getElem?_eq_getElem (h.length_eq ▸ hi)⟩
  cases j with
  | waiting =>
    refine ⟨.taken, ?_, rfl⟩
    rw [(Step.take hj hc (canTake_of_endedBelow h hw he hj)).move_eq]
    exact List.getElem?_set_self hi
  | taken =>
    refine ⟨.parsed (crew.parser c.path), ?_, rfl⟩
    rw [(Step.parse hj hc).move_eq]
    exact List.getElem?_set_self hi
  | parsed o =>
    refine ⟨.ended (ending o), ?_, rfl⟩
    rw [(finish_step hj hc).move_eq, finish_jobs]
    exact List.getElem?_set_self hi
  | ended f? => exact ⟨.ended f?, by simp [move, hj, hc], rfl⟩

theorem endedBelow_move (he : EndedBelow i pool) : EndedBelow i (move crew pool i) := by
  intro k hk j hj
  rw [move_other crew pool (by omega)] at hj
  exact he k hk j hj

/-- Three moves end the first job that has not ended. -/
theorem endedBelow_succ (h : Kept crew pool) (hw : 0 < crew.workers) (he : EndedBelow i pool)
    (hi : i < crew.candidates.length) : EndedBelow (i + 1) (follow crew [i, i, i] pool) := by
  have h1 := kept_follow h [i]
  have h2 := kept_follow h1 [i]
  simp only [follow_cons, follow_nil] at h1 h2 ⊢
  obtain ⟨j, hj⟩ : ∃ j, pool.jobs[i]? = some j := ⟨_, List.getElem?_eq_getElem (h.length_eq ▸ hi)⟩
  obtain ⟨j1, hj1, e1⟩ := move_first h hw he hj
  obtain ⟨j2, hj2, e2⟩ := move_first h1 hw (endedBelow_move he) hj1
  obtain ⟨j3, hj3, e3⟩ := move_first h2 hw (endedBelow_move (endedBelow_move he)) hj2
  intro k hk l hl
  by_cases hki : k = i
  · subst hki
    rw [hj3] at hl
    cases hl
    have : movesLeft j ≤ 3 := by cases j <;> simp [movesLeft]
    omega
  · exact endedBelow_move (endedBelow_move (endedBelow_move he)) k (by omega) l hl

theorem endedBelow_inOrder (h : Kept crew pool) (hw : 0 < crew.workers) {n : Nat}
    (hn : n ≤ crew.candidates.length) : EndedBelow n (follow crew (inOrder n) pool) := by
  induction n with
  | zero => intro k hk; omega
  | succ n ih =>
    have horder : inOrder (n + 1) = inOrder n ++ [n, n, n] := by
      simp [inOrder, List.range_succ]
    rw [horder, follow_append]
    exact endedBelow_succ (kept_follow h _) hw (ih (by omega)) hn

/-- All jobs have ended. -/
def Done (pool : Pool) : Prop :=
  ∀ j ∈ pool.jobs, movesLeft j = 0

theorem kept_run (crew : Crew) (schedule : List Nat) : Kept crew (run crew schedule) :=
  kept_follow (kept_start crew) _

/-- A pool with a worker comes to an end, whatever the schedule is. -/
theorem done_run (crew : Crew) (hw : crew.candidates ≠ [] → 0 < crew.workers)
    (schedule : List Nat) : Done (run crew schedule) := by
  have hk := kept_run crew schedule
  intro j hj
  obtain ⟨k, hkj⟩ := List.mem_iff_getElem?.1 hj
  have hlt : k < crew.candidates.length := hk.length_eq ▸ (List.getElem?_eq_some_iff.1 hkj).1
  have hne : crew.candidates ≠ [] := fun e => by simp [e] at hlt
  refine endedBelow_inOrder (kept_follow (kept_start crew) schedule) (hw hne) (Nat.le_refl _) k hlt
    j ?_
  rwa [run, follow_append] at hkj

/-! ## Schedules are enough -/

theorem move_of_done (hd : Done pool) (i : Nat) : move crew pool i = pool := by
  rcases move_cases crew pool i with e | hs
  · exact e
  · have hended : ∀ {j : Job}, pool.jobs[i]? = some j → movesLeft j = 0 :=
      fun hj => hd _ (List.mem_of_getElem? hj)
    generalize move crew pool i = pool' at hs
    cases hs with
    | take hj | parse hj | add hj | log hj | fail hj => cases hended hj

theorem follow_of_done (hd : Done pool) (schedule : List Nat) :
    follow crew schedule pool = pool := by
  induction schedule with
  | nil => rfl
  | cons i schedule ih => rw [follow_cons, move_of_done hd, ih]

/-- Whatever order the workers make their steps in, the end they come to is that of a schedule. -/
theorem exists_run_of_steps (hs : Steps crew (start crew) pool) (hd : Done pool) :
    ∃ schedule, run crew schedule = pool := by
  obtain ⟨schedule, h⟩ := steps_iff_schedule.1 hs
  exact ⟨schedule, by rw [run, follow_append, h, follow_of_done hd]⟩

/-- With one worker for each candidate every step can be made that any number of workers makes. -/
theorem step_of_workers (h : Kept crew pool) (hs : Step crew pool i pool') :
    Step { crew with workers := crew.candidates.length } pool i pool' := by
  cases hs with
  | @take c hj hc ht =>
    refine .take hj hc ?_
    have hfree : pool.jobs.countP (·.underWay) < crew.candidates.length := by
      rw [← h.length_eq]
      refine Nat.lt_of_le_of_ne List.countP_le_length fun e => ?_
      exact absurd (List.countP_eq_length.1 e _ (List.mem_of_getElem? hj)) (by decide)
    rw [canTake, Bool.and_eq_true] at ht ⊢
    exact ⟨ht.1, by simpa using hfree⟩
  | parse hj hc => exact .parse hj hc
  | add hj hc => exact .add hj hc
  | log hj hc hk hm => exact .log hj hc hk hm
  | fail hj hc he => exact .fail hj hc he

theorem steps_of_workers (hs : Steps crew (start crew) pool) :
    Steps { crew with workers := crew.candidates.length } (start crew) pool := by
  have hboth : Kept crew pool ∧
      Steps { crew with workers := crew.candidates.length } (start crew) pool := by
    induction hs with
    | refl => exact ⟨kept_start crew, .refl⟩
    | tail _ hstep ih =>
      obtain ⟨i, hstep⟩ := hstep
      exact ⟨kept_step ih.1 hstep, ih.2.tail ⟨i, step_of_workers ih.1 hstep⟩⟩
  exact hboth.2

/-! ## After the run -/

/-- What becomes of the failure that a job ended with. -/
def late (logger : String) (p : Path) : Option Failure → Fate
  | none => .lost
  | some f => .attempted logger p f

/-- Of an ended job the worker and the end make the fate of its candidate. -/
theorem pooled_cases (logger : String) (p : Path) (o : Except Failure Credential) :
    (∃ credential, o = .ok credential ∧ Fate.pooled logger p o = .loaded credential ∧
      firstRecord logger p o = none ∧ late logger p (ending o) = .lost) ∨
    (∃ f record, o = .error f ∧ Fate.pooled logger p o = .logged record ∧
      firstRecord logger p o = some record ∧ late logger p (ending o) = .lost) ∨
    (∃ f, o = .error f ∧ firstRecord logger p o = none ∧
      late logger p (ending o) = Fate.pooled logger p o) := by
  cases o with
  | ok credential => exact .inl ⟨credential, rfl, rfl, rfl, rfl⟩
  | error f =>
    rcases failure_cases f with hk | ⟨hk, m, hm⟩ | ⟨hk, g, hm⟩
    · have he := ending_of_fatal hk
      refine .inr (.inr ⟨f, rfl, firstRecord_of_ending he, ?_⟩)
      rw [he, late, Fate.attempted_of_fatal hk, Fate.pooled_of_fatal hk]
    · refine .inr (.inl ⟨f, _, rfl, Fate.pooled_of_ok hk hm, firstRecord_of_ok hk hm, ?_⟩)
      rw [ending_of_ok hk hm, late]
    · have he := ending_of_error hk hm
      refine .inr (.inr ⟨f, rfl, firstRecord_of_ending he, ?_⟩)
      rw [he, late, Fate.pooled_of_error hk hm]

theorem reportEnds_eq (logger : String) (e : Candidate → Option Failure) (cs : List Candidate) :
    reportEnds logger (cs.map fun c => (c, .ended (e c))) =
      Fate.logUntil (cs.map fun c => late logger c.path (e c)) := by
  induction cs with
  | nil => rfl
  | cons c cs ih =>
    simp only [List.map_cons]
    cases he : e c with
    | none => simpa [reportEnds, late, Fate.logUntil] using ih
    | some f =>
      rcases failure_cases f with hk | ⟨hk, m, hm⟩ | ⟨hk, g, hm⟩
      · simpa [reportEnds, hk, late, Fate.attempted_of_fatal hk, Fate.logUntil] using ih
      · simp [reportEnds, hk, reportFailure, hm, Except.map, late, Fate.attempted_of_ok hk hm,
          Fate.logUntil, ih]
      · simp [reportEnds, hk, reportFailure, hm, Except.map, late, Fate.attempted_of_error hk hm,
          Fate.logUntil]

/-- No record is logged twice. -/
theorem firstRecord_eq_none_or (logger : String) (p : Path) (o : Except Failure Credential) :
    firstRecord logger p o = none ∨ (late logger p (ending o)).record? = none := by
  rcases pooled_cases logger p o with ⟨_, -, -, h, -⟩ | ⟨_, _, -, -, -, h⟩ | ⟨_, -, h, -⟩
  · exact .inl h
  · exact .inr (by rw [h]; rfl)
  · exact .inl h

theorem record?_eq_or (logger : String) (p : Path) (o : Except Failure Credential) :
    (Fate.pooled logger p o).record? =
      (firstRecord logger p o).or (late logger p (ending o)).record? := by
  rcases pooled_cases logger p o with ⟨_, -, h, hf, hl⟩ | ⟨_, _, -, h, hf, hl⟩ | ⟨_, -, hf, hl⟩
  · rw [h, hf, hl]; rfl
  · rw [h, hf, hl]; rfl
  · rw [hf, hl]; rfl

theorem late_eq_raised {logger : String} {p : Path} {o : Except Failure Credential} {f : Failure} :
    late logger p (ending o) = .raised f ↔ Fate.pooled logger p o = .raised f := by
  rcases pooled_cases logger p o with ⟨_, -, h, -, hl⟩ | ⟨_, _, -, h, -, hl⟩ | ⟨_, -, -, hl⟩
  · rw [h, hl]; simp
  · rw [h, hl]; simp
  · rw [hl]

/-- A candidate with its job as the outcome has ended it. -/
def settled (crew : Crew) (c : Candidate) : Candidate × Job :=
  (c, .ended (ending (crew.parser c.path)))

theorem work_of_done (h : Kept crew pool) (hd : Done pool) :
    work crew pool = crew.candidates.map (settled crew) := by
  -- An ended job has no choice: `Fits` says with which failure it ended.
  have hended : ∀ e ∈ work crew pool, e = settled crew e.1 := by
    rintro ⟨c, j⟩ he
    have hj := hd j (List.of_mem_zip he).2
    have hfits := h.fits (c, j) he
    cases j with
    | ended f? => rw [settled, show f? = _ from hfits]
    | _ => cases hj
  calc work crew pool = (work crew pool).map (fun e => e) := by simp
    _ = (work crew pool).map (fun e => settled crew e.1) := List.map_congr_left hended
    _ = ((work crew pool).map Prod.fst).map (settled crew) := by rw [List.map_map]; rfl
    _ = crew.candidates.map (settled crew) := by
      rw [work, List.map_fst_zip (Nat.le_of_eq h.length_eq.symm)]

/-- The records that the workers of a whole run log are those of the candidates' first attempts. -/
theorem log_run (crew : Crew) (hw : crew.candidates ≠ [] → 0 < crew.workers) (schedule : List Nat) :
    (run crew schedule).log.Perm
      (crew.candidates.filterMap fun c => firstRecord crew.logger c.path (crew.parser c.path)) := by
  have hrec := (kept_run crew schedule).records
  rwa [work_of_done (kept_run crew schedule) (done_run crew hw schedule), List.filterMap_map] at hrec

/-- What is logged after a whole run is what becomes of the failures that jobs ended with. -/
theorem reportEnds_run (crew : Crew) (hw : crew.candidates ≠ [] → 0 < crew.workers)
    (schedule : List Nat) : reportEnds crew.logger (crew.candidates.zip (run crew schedule).jobs) =
      Fate.logUntil (crew.candidates.map fun c =>
        late crew.logger c.path (ending (crew.parser c.path))) := by
  rw [← reportEnds_eq]
  exact congrArg _ (work_of_done (kept_run crew schedule) (done_run crew hw schedule))

end Pool

open Pool in
/-- Several workers settle every candidate, whatever the schedule is. -/
theorem concurrent_settles (crew : Crew) (hw : crew.candidates ≠ [] → 0 < crew.workers)
    (schedule : List Nat) (directory : String) :
    Settles crew.logger directory (fun c => .pooled crew.logger c.path (crew.parser c.path))
      crew.candidates (concurrent crew schedule directory) := by
  obtain ⟨-, -, -, hcred, -, hcall⟩ := kept_run crew schedule
  -- All jobs are settled, so the collections are functions of the candidates alone.
  have hwork := work_of_done (kept_run crew schedule) (done_run crew hw schedule)
  rw [hwork, List.filterMap_map] at hcred hcall
  rw [concurrent, reportEnds_run crew hw]
  rcases Fate.logUntil_cases (crew.candidates.map fun c =>
    late crew.logger c.path (ending (crew.parser c.path))) with
    ⟨f, hm, hs⟩ | ⟨hm, hs⟩
  · obtain ⟨c, hc, hcf⟩ := List.mem_map.1 hm
    rw [← Prod.eta (Fate.logUntil _), hs]
    exact .raises hc (late_eq_raised.1 hcf)
  · rw [hs, List.filterMap_map]
    refine .returns (fun c hc f hcf => hm f (List.mem_map.2 ⟨c, hc, late_eq_raised.2 hcf⟩)) ?_ ?_ ?_
    · simp only [Fate.credential?_pooled]
      exact hcred
    · simp only [record?_eq_or]
      exact ((log_run crew hw schedule).append_right _).trans
        (filterMap_or fun c _ => firstRecord_eq_none_or crew.logger c.path (crew.parser c.path))
    · simpa [Function.comp_def, settled, called] using hcall

end Keyring.Load
