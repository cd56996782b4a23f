import Keyring.Load.Directory
import Keyring.Proofs.Contents
/-!
# Loads look at no credential

If one parser gives the images under `g` of the credentials that another gives, and fails where and as
that one does, then a load with it leaves behind the images of the credentials, the same log and the
same calls (`candidates_map`). With several workers that holds of every move of every job (`move_map`),
so of every schedule. Two hosts that differ in what files hold, with parsers whose credentials have the
same images, thus lead to reports that differ in nothing that `g` keeps (`load_map_eq`).
-/

namespace Keyring

/-- The aggregator with the images of its credentials. -/
def Aggregator.map (g : Credential → Credential) (a : Aggregator) : Aggregator :=
  ⟨a.items.map g⟩

theorem Aggregator.collect_map (g : Credential → Credential) (a : Aggregator)
    (outcomes : List (Except Failure Credential)) :
    (a.map g).collect ((outcomes.map (Except.map g)).map Except.toOption) =
      (a.collect (outcomes.map Except.toOption)).map g := by
  induction outcomes generalizing a with
  | nil => rfl
  | cons o outcomes ih =>
    cases o with
    | error f => exact ih a
    | ok credential =>
      have hadd : (a.map g).add (g credential) = (a.add credential).map g := by
        simp [Aggregator.add, Aggregator.map]
      change ((a.map g).add (g credential)).collect _ = ((a.add credential).collect _).map g
      rw [hadd]
      exact ih _

namespace Load

open Log

/-- The report with the images of the credentials. -/
def Report.map (g : Credential → Credential) (r : Report) : Report :=
  { r with result := r.result.map (List.map g) }

variable {g : Credential → Credential} {logger directory : String} {parser parser' : Parser}
  {found : List Candidate}

/-- On the candidates, `parser'` gives the images of the credentials that `parser` gives. -/
def Maps (g : Credential → Credential) (parser parser' : Parser) (found : List Candidate) : Prop :=
  ∀ c ∈ found, parser' c.path = (parser c.path).map g

/-! ## One file after the other -/

theorem parseAll_map (hp : Maps g parser parser' found) :
    parseAll parser' found =
      ((parseAll parser found).1.map (List.map (Except.map g)), (parseAll parser found).2) := by
  induction found with
  | nil => rfl
  | cons c found ih =>
    have ih := ih fun d hd => hp d (List.mem_cons_of_mem _ hd)
    simp only [parseAll, hp c List.mem_cons_self]
    cases parser c.path with
    | ok credential =>
      simp only [Except.map, ih]
      cases (parseAll parser found).1 <;> rfl
    | error f =>
      simp only [Except.map]
      split
      · rfl
      · simp only [ih]
        cases (parseAll parser found).1 <;> rfl

theorem reportAll_map (outcomes : List (Except Failure Credential)) :
    reportAll logger (found.zip (outcomes.map (Except.map g))) =
      reportAll logger (found.zip outcomes) := by
  induction outcomes generalizing found with
  | nil => simp
  | cons o outcomes ih =>
    cases found with
    | nil => rfl
    | cons c found =>
      cases o with
      | ok credential => exact ih
      | error f =>
        simp only [List.map_cons, List.zip_cons_cons, Except.map, reportAll]
        rw [ih]

theorem sequential_map (hp : Maps g parser parser' found) :
    sequential logger parser' directory found =
      (sequential logger parser directory found).map g := by
  simp only [sequential, parseAll_map hp]
  rcases parseAll parser found with ⟨_ | outcomes, calls⟩
  · rfl
  · have hcollect : Aggregator.empty.collect ((outcomes.map (Except.map g)).map Except.toOption) =
        (Aggregator.empty.collect (outcomes.map Except.toOption)).map g :=
      Aggregator.collect_map g .empty outcomes
    simp only [Except.map, reportAll_map]
    rcases reportAll logger (found.zip outcomes) with ⟨records, _ | f⟩
    · simp only [hcollect]
      simp [Report.map, Except.map, Aggregator.results, Aggregator.size, Aggregator.map]
    · rfl

/-! ## Several workers -/

namespace Pool

/-- The job with the image of the credential that it has parsed. -/
def mapJob (g : Credential → Credential) : Job → Job
  | .parsed o => .parsed (o.map g)
  | j => j

@[simp] theorem underWay_mapJob (j : Job) : (mapJob g j).underWay = j.underWay := by
  cases j <;> rfl

@[simp] theorem isWaiting_mapJob (j : Job) : (mapJob g j).isWaiting = j.isWaiting := by
  cases j <;> rfl

/-- The pool with the images of the credentials. -/
def map (g : Credential → Credential) (pool : Pool) : Pool :=
  { pool with jobs := pool.jobs.map (mapJob g), aggregator := pool.aggregator.map g }

variable {crew : Crew} {pool : Pool}

theorem canTake_map (parser' : Parser) (i : Nat) :
    canTake { crew with parser := parser' } (pool.map g) i = canTake crew pool i := by
  simp [canTake, map, ← List.map_take, List.countP_map, Function.comp_def]

theorem setJob_map (i : Nat) (j : Job) :
    (pool.map g).setJob i (mapJob g j) = (pool.setJob i j).map g := by
  simp [setJob, map, List.map_set]

theorem finish_map (parser' : Parser) (i : Nat) (p : Path) (o : Except Failure Credential) :
    finish { crew with parser := parser' } (pool.map g) i p (o.map g) =
      (finish crew pool i p o).map g := by
  have hended (f? : Option Failure) :
      (pool.map g).setJob i (mapJob g (.ended f?)) = (pool.setJob i (.ended f?)).map g := setJob_map i _
  simp only [mapJob] at hended
  cases o with
  | ok credential =>
    simp only [Except.map, finish, hended]
    simp [map, Aggregator.map, Aggregator.add]
  | error f =>
    simp only [Except.map, finish]
    split
    · exact hended _
    · split
      · simp only [hended]
        rfl
      · exact hended _

theorem move_map (hp : Maps g crew.parser parser' crew.candidates) (i : Nat) :
    move { crew with parser := parser' } (pool.map g) i = (move crew pool i).map g := by
  have hjob : (pool.map g).jobs[i]? = pool.jobs[i]?.map (mapJob g) := List.getElem?_map
  unfold move
  rw [hjob]
  cases hj : pool.jobs[i]? with
  | none => rfl
  | some j =>
    cases hc : crew.candidates[i]? with
    | none => cases j <;> rfl
    | some c =>
      cases j with
      | waiting =>
        simp only [Option.map, mapJob, canTake_map]
        split
        · exact setJob_map i .taken
        · rfl
      | taken =>
        have hparsed : (pool.map g).setJob i (mapJob g (.parsed (crew.parser c.path))) =
            (pool.setJob i (.parsed (crew.parser c.path))).map g := setJob_map i _
        simp only [mapJob] at hparsed
        simp only [Option.map, mapJob, hp c (List.mem_of_getElem? hc), hparsed]
        rfl
      | parsed o => exact finish_map parser' i c.path o
      | ended f? => rfl

theorem follow_map (hp : Maps g crew.parser parser' crew.candidates) (schedule : List Nat) :
    follow { crew with parser := parser' } schedule (pool.map g) =
      (follow crew schedule pool).map g := by
  induction schedule generalizing pool with
  | nil => rfl
  | cons i schedule ih =>
    simp only [follow, List.foldl_cons]
    rw [move_map hp]
    exact ih

theorem run_map (hp : Maps g crew.parser parser' crew.candidates) (schedule : List Nat) :
    run { crew with parser := parser' } schedule = (run crew schedule).map g := by
  have hstart : start { crew with parser := parser' } = (start crew).map g := by
    simp [start, map, mapJob, Aggregator.map, Aggregator.empty]
  rw [run, hstart]
  exact follow_map hp _

theorem reportEnds_map (found : List Candidate) (jobs : List Job) :
    reportEnds logger (found.zip (jobs.map (mapJob g))) = reportEnds logger (found.zip jobs) := by
  induction jobs generalizing found with
  | nil => simp
  | cons j jobs ih =>
    cases found with
    | nil => rfl
    | cons c found =>
      simp only [List.map_cons, List.zip_cons_cons]
      cases j with
      | ended f? =>
        cases f? with
        | none => exact ih found
        | some f =>
          simp only [mapJob, reportEnds]
          rw [ih]
      | waiting => exact ih found
      | taken => exact ih found
      | parsed o => exact ih found

end Pool

theorem concurrent_map (crew : Crew) (hp : Maps g crew.parser parser' crew.candidates)
    (schedule : List Nat) :
    concurrent { crew with parser := parser' } schedule directory =
      (concurrent crew schedule directory).map g := by
  simp only [concurrent, Pool.run_map hp]
  simp only [Pool.map, Pool.reportEnds_map]
  rcases Pool.reportEnds crew.logger (crew.candidates.zip (Pool.run crew schedule).jobs) with
    ⟨records, _ | f⟩
  · simp [Report.map, Except.map, Aggregator.map, Aggregator.results, Aggregator.size]
  · rfl

/-! ## Every mode -/

theorem candidates_map (mode : Mode) (schedule : List Nat) (hp : Maps g parser parser' found) :
    candidates mode schedule logger parser' directory found =
      (candidates mode schedule logger parser directory found).map g := by
  have hconcurrent (workers : Nat) :
      concurrent ⟨workers, logger, parser', found⟩ schedule directory =
        (concurrent ⟨workers, logger, parser, found⟩ schedule directory).map g :=
    concurrent_map ⟨workers, logger, parser, found⟩ hp schedule
  cases mode with
  | sequential => exact sequential_map hp
  | async => exact hconcurrent _
  | concurrent workers? =>
    cases workers? with
    | none => exact hconcurrent _
    | some n =>
      simp only [candidates]
      split
      · rfl
      · exact hconcurrent _

/-- Parsers whose credentials have the same images lead to the same report but for what `g` does not
keep. -/
theorem candidates_map_eq (mode : Mode) (schedule : List Nat)
    (hp : ∀ c ∈ found, (parser c.path).map g = (parser' c.path).map g) :
    (candidates mode schedule logger parser directory found).map g =
      (candidates mode schedule logger parser' directory found).map g := by
  have himage : Maps g parser (fun p => (parser p).map g) found := fun _ _ => rfl
  have himage' : Maps g parser' (fun p => (parser p).map g) found := hp
  rw [← candidates_map mode schedule himage, ← candidates_map mode schedule himage']

theorem load_map_eq {R : Contents} {h h' : Host} (halike : h.Alike R h') {extension : String}
    (mode : Mode) (schedule : List Nat)
    (hp : ∀ scanned, scan h (.ofString directory) extension = .ok scanned →
      ∀ c ∈ scanned.candidates, (parser c.path).map g = (parser' c.path).map g) :
    (load h' mode schedule logger parser' directory extension).map g =
      (load h mode schedule logger parser directory extension).map g := by
  simp only [load, scan_eq halike]
  cases hs : scan h (.ofString directory) extension with
  | error f => rfl
  | ok scanned =>
    have hreport : (candidates mode schedule logger parser directory scanned.candidates).map g =
        (candidates mode schedule logger parser' directory scanned.candidates).map g :=
      candidates_map_eq mode schedule (hp scanned hs)
    simp only [Report.map, Report.mk.injEq] at hreport ⊢
    exact ⟨hreport.1.symm, by rw [hreport.2.1], hreport.2.2.symm⟩

end Load

end Keyring
