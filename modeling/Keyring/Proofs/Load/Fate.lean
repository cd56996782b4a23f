import Keyring.Load.Directory
/-!
# What becomes of a candidate

A load settles every candidate for itself: its credential is loaded, its failure is logged, nothing
is left of it, or a failure leaves the load. Which of the four it is depends on the outcome of the
parser and on the mode alone. `Settles` says of a report that it is made up of such fates, in some
order. `sequential_settles` proves it for loads of one file after the other.
-/

namespace Keyring.Load

open Log

inductive Fate where
  | loaded (credential : Credential)
  | logged (record : Record)
  /-- Nothing is left of the candidate. -/
  | lost
  /-- A failure leaves the load. -/
  | raised (f : Failure)

namespace Fate

def credential? : Fate → Option Credential
  | loaded credential => some credential
  | _ => none

def record? : Fate → Option Record
  | logged record => some record
  | _ => none

/-- The fate of a failure that is to be logged. -/
def reported (logger : String) (p : Path) (f : Failure) : Fate :=
  match reportFailure logger p f with
  | .ok record => logged record
  | .error g => raised g

/-- The same where failures that stop the program are dropped. -/
def attempted (logger : String) (p : Path) (f : Failure) : Fate :=
  if f.kind = .fatal then lost else reported logger p f

/-- The fate of an outcome in the calling thread. -/
def alone (logger : String) (p : Path) : Except Failure Credential → Fate
  | .ok credential => loaded credential
  | .error f => if f.kind = .fatal then raised f else reported logger p f

/-- The fate of an outcome in a worker. What leaves the worker is logged once more at the end. -/
def pooled (logger : String) (p : Path) : Except Failure Credential → Fate
  | .ok credential => loaded credential
  | .error f =>
    match attempted logger p f with
    | raised g => attempted logger p g
    | fate => fate

end Fate

/-- The fate of a candidate. -/
def Mode.fate (mode : Mode) (logger : String) (parser : Parser) (c : Candidate) : Fate :=
  if mode = .sequential then .alone logger c.path (parser c.path)
  else .pooled logger c.path (parser c.path)

/-- A report made up of the fates of the candidates: a failure that left the load, or all their
credentials and records with the summary at the end. -/
inductive Settles (logger directory : String) (fate : Candidate → Fate) (found : List Candidate) :
    Report → Prop
  | raises {c f log calls} : c ∈ found → fate c = .raised f →
      Settles logger directory fate found ⟨.error f, log, calls⟩
  | returns {credentials errors calls} : (∀ c ∈ found, ∀ f, fate c ≠ .raised f) →
      credentials.Perm (found.filterMap fun c => (fate c).credential?) →
      errors.Perm (found.filterMap fun c => (fate c).record?) →
      calls.Perm (found.map (·.path)) →
      Settles logger directory fate found
        ⟨.ok credentials, errors ++ [summary logger credentials.length found.length directory], calls⟩

/-- A failure stops the program, its message can be had, or asking for the message fails. -/
theorem failure_cases (f : Failure) : f.kind = .fatal ∨
    f.kind ≠ .fatal ∧ (∃ m, f.rootMessage = .ok m) ∨
    f.kind ≠ .fatal ∧ ∃ g, f.rootMessage = .error g := by
  by_cases hk : f.kind = .fatal
  · exact .inl hk
  · cases f.rootMessage with
    | ok m => exact .inr (.inl ⟨hk, m, rfl⟩)
    | error g => exact .inr (.inr ⟨hk, g, rfl⟩)

namespace Fate

variable {logger : String} {p : Path} {f g : Failure} {m : String}

/-! ## Which fate it is -/

theorem reported_of_ok (hm : f.rootMessage = .ok m) :
    reported logger p f = logged (failureRecord logger p m) := by
  rw [reported, reportFailure, hm]; rfl

theorem reported_of_error (hm : f.rootMessage = .error g) : reported logger p f = raised g := by
  rw [reported, reportFailure, hm]; rfl

theorem alone_of_fatal (hk : f.kind = .fatal) : alone logger p (.error f) = raised f :=
  if_pos hk

theorem alone_of_ok (hk : f.kind ≠ .fatal) (hm : f.rootMessage = .ok m) :
    alone logger p (.error f) = logged (failureRecord logger p m) :=
  (if_neg hk).trans (reported_of_ok hm)

theorem alone_of_error (hk : f.kind ≠ .fatal) (hm : f.rootMessage = .error g) :
    alone logger p (.error f) = raised g :=
  (if_neg hk).trans (reported_of_error hm)

theorem attempted_of_fatal (hk : f.kind = .fatal) : attempted logger p f = lost :=
  if_pos hk

theorem attempted_of_ok (hk : f.kind ≠ .fatal) (hm : f.rootMessage = .ok m) :
    attempted logger p f = logged (failureRecord logger p m) :=
  (if_neg hk).trans (reported_of_ok hm)

theorem attempted_of_error (hk : f.kind ≠ .fatal) (hm : f.rootMessage = .error g) :
    attempted logger p f = raised g :=
  (if_neg hk).trans (reported_of_error hm)

theorem pooled_of_fatal (hk : f.kind = .fatal) : pooled logger p (.error f) = lost := by
  rw [pooled, attempted_of_fatal hk]

theorem pooled_of_ok (hk : f.kind ≠ .fatal) (hm : f.rootMessage = .ok m) :
    pooled logger p (.error f) = logged (failureRecord logger p m) := by
  rw [pooled, attempted_of_ok hk hm]

theorem pooled_of_error (hk : f.kind ≠ .fatal) (hm : f.rootMessage = .error g) :
    pooled logger p (.error f) = attempted logger p g := by
  rw [pooled, attempted_of_error hk hm]

theorem attempted_eq_lost : attempted logger p f = lost ↔ f.kind = .fatal := by
  rcases failure_cases f with hk | ⟨hk, m, hm⟩ | ⟨hk, g, hm⟩
  · simp [attempted_of_fatal hk, hk]
  · simp [attempted_of_ok hk hm, hk]
  · simp [attempted_of_error hk hm, hk]

theorem alone_ne_lost (o : Except Failure Credential) : alone logger p o ≠ lost := by
  cases o with
  | ok credential => simp [alone]
  | error f =>
    rcases failure_cases f with hk | ⟨hk, m, hm⟩ | ⟨hk, g, hm⟩
    · simp [alone_of_fatal hk]
    · simp [alone_of_ok hk hm]
    · simp [alone_of_error hk hm]

theorem pooled_eq_lost : pooled logger p (.error f) = lost ↔
    f.kind = .fatal ∨ ∃ g, f.rootMessage = .error g ∧ g.kind = .fatal := by
  rcases failure_cases f with hk | ⟨hk, m, hm⟩ | ⟨hk, g, hm⟩
  · simp [pooled_of_fatal hk, hk]
  · simp [pooled_of_ok hk hm, hk, hm]
  · simp [pooled_of_error hk hm, attempted_eq_lost, hk, hm]

theorem credential?_attempted : (attempted logger p f).credential? = none := by
  rcases failure_cases f with hk | ⟨hk, m, hm⟩ | ⟨hk, g, hm⟩
  · rw [attempted_of_fatal hk]; rfl
  · rw [attempted_of_ok hk hm]; rfl
  · rw [attempted_of_error hk hm]; rfl

theorem credential?_alone (o : Except Failure Credential) :
    (alone logger p o).credential? = o.toOption := by
  cases o with
  | ok credential => rfl
  | error f =>
    rcases failure_cases f with hk | ⟨hk, m, hm⟩ | ⟨hk, g, hm⟩
    · rw [alone_of_fatal hk]; rfl
    · rw [alone_of_ok hk hm]; rfl
    · rw [alone_of_error hk hm]; rfl

theorem credential?_pooled (o : Except Failure Credential) :
    (pooled logger p o).credential? = o.toOption := by
  cases o with
  | ok credential => rfl
  | error f =>
    rcases failure_cases f with hk | ⟨hk, m, hm⟩ | ⟨hk, g, hm⟩
    · rw [pooled_of_fatal hk]; rfl
    · rw [pooled_of_ok hk hm]; rfl
    · rw [pooled_of_error hk hm, credential?_attempted]; rfl

theorem record?_attempted {r : Record} (h : (attempted logger p f).record? = some r) :
    ∃ m, r = failureRecord logger p m := by
  rcases failure_cases f with hk | ⟨hk, m, hm⟩ | ⟨hk, g, hm⟩
  · rw [attempted_of_fatal hk] at h; cases h
  · rw [attempted_of_ok hk hm] at h; cases h; exact ⟨m, rfl⟩
  · rw [attempted_of_error hk hm] at h; cases h

theorem record?_alone {o : Except Failure Credential} {r : Record}
    (h : (alone logger p o).record? = some r) :
    (∃ f, o = .error f) ∧ ∃ m, r = failureRecord logger p m := by
  cases o with
  | ok credential => cases h
  | error f =>
    refine ⟨⟨f, rfl⟩, ?_⟩
    rcases failure_cases f with hk | ⟨hk, m, hm⟩ | ⟨hk, g, hm⟩
    · rw [alone_of_fatal hk] at h; cases h
    · rw [alone_of_ok hk hm] at h; cases h; exact ⟨m, rfl⟩
    · rw [alone_of_error hk hm] at h; cases h

theorem record?_pooled {o : Except Failure Credential} {r : Record}
    (h : (pooled logger p o).record? = some r) :
    (∃ f, o = .error f) ∧ ∃ m, r = failureRecord logger p m := by
  cases o with
  | ok credential => cases h
  | error f =>
    refine ⟨⟨f, rfl⟩, ?_⟩
    rcases failure_cases f with hk | ⟨hk, m, hm⟩ | ⟨hk, g, hm⟩
    · rw [pooled_of_fatal hk] at h; cases h
    · rw [pooled_of_ok hk hm] at h; cases h; exact ⟨m, rfl⟩
    · rw [pooled_of_error hk hm] at h; exact record?_attempted h

/-! ## Logging up to a failure -/

/-- The records of fates up to the first failure that leaves the load. -/
def logUntil : List Fate → List Record × Option Failure
  | [] => ([], none)
  | logged record :: fates => (record :: (logUntil fates).1, (logUntil fates).2)
  | raised f :: _ => ([], some f)
  | _ :: fates => logUntil fates

theorem logUntil_cases (fates : List Fate) :
    (∃ f, raised f ∈ fates ∧ (logUntil fates).2 = some f) ∨
      (∀ f, raised f ∉ fates) ∧ logUntil fates = (fates.filterMap record?, none) := by
  induction fates with
  | nil => exact .inr ⟨by simp, rfl⟩
  | cons fate fates ih =>
    cases fate with
    | raised f => exact .inl ⟨f, by simp, rfl⟩
    | logged record =>
      rcases ih with ⟨f, hf, h⟩ | ⟨hf, h⟩
      · exact .inl ⟨f, List.mem_cons_of_mem _ hf, h⟩
      · exact .inr ⟨by simpa using hf, by simp [logUntil, h, record?]⟩
    -- These two leave no trace in the log.
    | loaded _ | lost =>
      rcases ih with ⟨f, hf, h⟩ | ⟨hf, h⟩
      · exact .inl ⟨f, List.mem_cons_of_mem _ hf, h⟩
      · exact .inr ⟨by simpa using hf, by rw [List.filterMap_cons_none rfl]; exact h⟩

end Fate

/-! ## One file after the other -/

theorem parseAll_cons {parser : Parser} {c : Candidate}
    (h : ∀ f, parser c.path = .error f → f.kind ≠ .fatal) (cs : List Candidate) :
    parseAll parser (c :: cs) =
      ((parseAll parser cs).1.map (parser c.path :: ·), c.path :: (parseAll parser cs).2) := by
  cases hc : parser c.path with
  | ok credential => simp [parseAll, hc]
  | error f => simp [parseAll, hc, h f hc]

/-- A fatal failure ends the parsing; else every candidate is parsed once. -/
theorem parseAll_cases (parser : Parser) (cs : List Candidate) :
    (∃ c ∈ cs, ∃ f calls, parser c.path = .error f ∧ f.kind = .fatal ∧
      parseAll parser cs = (.error f, calls)) ∨
    (∀ c ∈ cs, ∀ f, parser c.path = .error f → f.kind ≠ .fatal) ∧
      parseAll parser cs = (.ok (cs.map fun c => parser c.path), cs.map (·.path)) := by
  induction cs with
  | nil => exact .inr ⟨by simp, rfl⟩
  | cons c cs ih =>
    by_cases hc : ∀ f, parser c.path = .error f → f.kind ≠ .fatal
    · rw [parseAll_cons hc]
      rcases ih with ⟨d, hd, f, calls, hf, hk, h⟩ | ⟨hf, h⟩
      · exact .inl ⟨d, List.mem_cons_of_mem _ hd, f, c.path :: calls, hf, hk, by rw [h]; rfl⟩
      · exact .inr ⟨List.forall_mem_cons.2 ⟨hc, hf⟩, by rw [h]; rfl⟩
    · obtain ⟨f, hf, hk⟩ : ∃ f, parser c.path = .error f ∧ f.kind = .fatal := by simpa using hc
      exact .inl ⟨c, List.mem_cons_self, f, [c.path], hf, hk, by simp [parseAll, hf, hk]⟩

theorem reportAll_eq (logger : String) (parser : Parser) (cs : List Candidate)
    (h : ∀ c ∈ cs, ∀ f, parser c.path = .error f → f.kind ≠ .fatal) :
    reportAll logger (cs.map fun c => (c, parser c.path)) =
      Fate.logUntil (cs.map fun c => .alone logger c.path (parser c.path)) := by
  induction cs with
  | nil => rfl
  | cons c cs ih =>
    have ih := ih fun d hd => h d (List.mem_cons_of_mem _ hd)
    simp only [List.map_cons]
    cases hc : parser c.path with
    | ok credential => simpa [reportAll, Fate.alone, Fate.logUntil] using ih
    | error f =>
      have hk := h c List.mem_cons_self f hc
      cases hr : reportFailure logger c.path f <;>
        simp [reportAll, Fate.alone, hk, Fate.reported, hr, Fate.logUntil, ih]

/-- Each candidate is paired with its own outcome. -/
theorem zip_outcomes (parser : Parser) (found : List Candidate) :
    found.zip (found.map fun c => parser c.path) = found.map fun c => (c, parser c.path) := by
  simpa using List.zip_map' (f := id) (g := fun c : Candidate => parser c.path) (l := found)

/-- The credentials of the outcomes are collected in their order. -/
theorem results_collect_outcomes (parser : Parser) (found : List Candidate) :
    (Aggregator.empty.collect ((found.map fun c => parser c.path).map Except.toOption)).results =
      found.filterMap fun c => (parser c.path).toOption := by
  rw [Aggregator.results_collect, List.map_map, List.filterMap_map]
  rfl

theorem sequential_settles (logger : String) (parser : Parser) (directory : String)
    (found : List Candidate) :
    Settles logger directory (fun c => .alone logger c.path (parser c.path)) found
      (sequential logger parser directory found) := by
  rcases parseAll_cases parser found with ⟨c, hc, f, calls, hf, hk, h⟩ | ⟨hf, h⟩
  · rw [sequential, h]
    exact .raises hc (by simp [hf, Fate.alone, hk])
  · simp only [sequential, h, zip_outcomes, reportAll_eq logger parser found hf]
    rcases Fate.logUntil_cases (found.map fun c => .alone logger c.path (parser c.path)) with
      ⟨f, hm, hs⟩ | ⟨hm, hs⟩
    · obtain ⟨c, hc, hcf⟩ := List.mem_map.1 hm
      rw [← Prod.eta (Fate.logUntil _), hs]
      exact .raises hc hcf
    · rw [hs]
      have hloaded : (Aggregator.empty.collect
          ((found.map fun c => parser c.path).map Except.toOption)).results =
          found.filterMap fun c => (Fate.alone logger c.path (parser c.path)).credential? := by
        simp only [results_collect_outcomes, Fate.credential?_alone]
      simp only [Aggregator.size_eq_length_results, List.filterMap_map]
      refine .returns (fun c hc f hcf => hm f (List.mem_map.2 ⟨c, hc, hcf⟩)) ?_ (.refl _) (.refl _)
      exact .of_eq hloaded

end Keyring.Load
