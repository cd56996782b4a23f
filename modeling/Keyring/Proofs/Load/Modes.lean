import Keyring.Proofs.Load.Pool
import Keyring.Proofs.Outcome
import Mathlib.Data.List.Perm.Basic
/-!
# What the modes have in common

However a directory is loaded, the report is made up of the fates of the candidates that the scan
found (`load_cases`). A fate depends on the mode only where a failure cannot be logged, so the modes
agree if every failure can be (`modes_agree`).
-/

namespace Keyring.Load

open Log

/-- There is a worker for every mode but a pool that is set up without. -/
def Mode.HasWorkers : Mode → Prop
  | .concurrent (some n) => 1 ≤ n
  | _ => True

/-- The records that tell of failures. -/
def Report.errors (r : Report) : List Record :=
  r.log.filter (·.level = .error)

/-- The records that sum loads up. -/
def Report.summaries (r : Report) : List Record :=
  r.log.filter (·.level = .info)

/-- A record says that the file at `p` could not be loaded. -/
def Tells (p : Path) (r : Record) : Prop :=
  r.level = .error ∧
    ∃ m, r.message = "Error loading signer metadata file " ++ toString p ++ ": " ++ m

variable {logger directory extension : String} {parser : Parser} {mode : Mode}

/-! ## Loading candidates -/

theorem fate_sequential (logger : String) (parser : Parser) (c : Candidate) :
    Mode.sequential.fate logger parser c = .alone logger c.path (parser c.path) :=
  if_pos rfl

theorem fate_of_ne (hm : mode ≠ .sequential) (logger : String) (parser : Parser) (c : Candidate) :
    mode.fate logger parser c = .pooled logger c.path (parser c.path) :=
  if_neg hm

theorem credential?_fate (mode : Mode) (logger : String) (parser : Parser) (c : Candidate) :
    (mode.fate logger parser c).credential? = (parser c.path).toOption := by
  by_cases hm : mode = .sequential
  · rw [hm, fate_sequential, Fate.credential?_alone]
  · rw [fate_of_ne hm, Fate.credential?_pooled]

theorem fate_of_ok {c : Candidate} {credential : Credential}
    (ho : parser c.path = .ok credential) : mode.fate logger parser c = .loaded credential := by
  by_cases hm : mode = .sequential
  · rw [hm, fate_sequential, ho]; rfl
  · rw [fate_of_ne hm, ho]; rfl

/-- A failure that can be logged is logged in every mode. -/
theorem fate_of_message {c : Candidate} {f : Failure} {m : String}
    (ho : parser c.path = .error f) (hk : f.kind ≠ .fatal) (hmsg : f.rootMessage = .ok m) :
    mode.fate logger parser c = .logged (failureRecord logger c.path m) := by
  by_cases hm : mode = .sequential
  · rw [hm, fate_sequential, ho, Fate.alone_of_ok hk hmsg]
  · rw [fate_of_ne hm, ho, Fate.pooled_of_ok hk hmsg]

/-- What is logged of a candidate tells of it, and its file could not be loaded. -/
theorem tells_of_fate {c : Candidate} {r : Record}
    (h : (mode.fate logger parser c).record? = some r) :
    Tells c.path r ∧ ∃ f, parser c.path = .error f := by
  obtain ⟨hf, m, rfl⟩ : (∃ f, parser c.path = .error f) ∧ ∃ m, r = failureRecord logger c.path m := by
    by_cases hm : mode = .sequential
    · rw [hm, fate_sequential] at h
      exact Fate.record?_alone h
    · rw [fate_of_ne hm] at h
      exact Fate.record?_pooled h
  exact ⟨⟨rfl, m, rfl⟩, hf⟩

/-- Candidates are loaded one after the other, or with workers of which there is one if there are
candidates. -/
theorem candidates_cases (hm : mode.HasWorkers) (schedule : List Nat) (logger : String)
    (parser : Parser) (directory : String) (found : List Candidate) :
    mode = .sequential ∧ candidates mode schedule logger parser directory found =
      sequential logger parser directory found ∨
    mode ≠ .sequential ∧ ∃ workers, (found ≠ [] → 0 < workers) ∧
      candidates mode schedule logger parser directory found =
        concurrent ⟨workers, logger, parser, found⟩ schedule directory := by
  match mode, hm with
  | .sequential, _ => exact .inl ⟨rfl, rfl⟩
  | .concurrent none, _ | .async, _ => exact .inr ⟨by simp, _, List.length_pos_iff.2, rfl⟩
  | .concurrent (some n), hm =>
    have hn : 1 ≤ n := hm
    refine .inr ⟨by simp, n.toNat, fun _ => by omega, ?_⟩
    rw [candidates, if_neg (by omega)]

theorem candidates_settles (hm : mode.HasWorkers) (schedule : List Nat) (logger : String)
    (parser : Parser) (directory : String) (found : List Candidate) :
    Settles logger directory (mode.fate logger parser) found
      (candidates mode schedule logger parser directory found) := by
  rcases candidates_cases hm schedule logger parser directory found with
    ⟨rfl, hc⟩ | ⟨hne, workers, hw, hc⟩
  · rw [hc]
    simpa only [funext (fate_sequential logger parser)] using
      sequential_settles logger parser directory found
  · rw [hc]
    simpa only [funext (fate_of_ne hne logger parser)] using
      concurrent_settles ⟨workers, logger, parser, found⟩ hw schedule directory

theorem candidates_noWorkers (hm : ¬ mode.HasWorkers) (schedule : List Nat) (logger : String)
    (parser : Parser) (directory : String) (found : List Candidate) :
    candidates mode schedule logger parser directory found = ⟨.error noWorkers, [], []⟩ := by
  match mode, hm with
  | .concurrent (some n), hm =>
    have hn : ¬ 1 ≤ n := hm
    rw [candidates, if_pos (by omega)]
  | .sequential, hm | .concurrent none, hm | .async, hm => exact absurd trivial hm

/-! ## Loading a directory -/

/-- A scan logs nothing at the levels of loads. -/
theorem level_of_mem_scan_log {h : Host} {p : Path} {extension : String} {r : Record}
    (hr : r ∈ (Scan.directory h p extension).log) : r.level = .debug ∨ r.level = .warning := by
  rw [Scan.directory] at hr
  split at hr
  · obtain rfl := List.mem_singleton.1 hr
    exact .inl rfl
  · obtain rfl := List.mem_singleton.1 hr
    exact .inr rfl
  · obtain ⟨_, he, hrec⟩ := List.mem_filterMap.1 hr
    obtain ⟨name, -, rfl⟩ := List.mem_map.1 he
    rw [Scan.entry] at hrec
    split at hrec
    · split at hrec
      · cases hrec
        exact .inl rfl
      · cases hrec
    · cases hrec

theorem filter_scan_log {h : Host} {p : Path} {scanned : Scan.Result} {level : Level}
    (hs : scan h p extension = .ok scanned) (hd : level ≠ .debug) (hw : level ≠ .warning) :
    scanned.log.filter (·.level = level) = [] := by
  cases hn : Scan.normaliseExtension extension with
  | error f => simp [scan, hn, bind, Except.bind] at hs
  | ok e =>
    simp only [scan, hn, bind, Except.bind, pure, Except.pure, Except.ok.injEq] at hs
    subst hs
    rw [List.filter_eq_nil_iff]
    intro r hr hl
    have hl : r.level = level := by simpa using hl
    rcases level_of_mem_scan_log hr with e | e
    · exact hd (hl ▸ e)
    · exact hw (hl ▸ e)

/-- The report of a load that returned: the fates of the candidates make up its three lists, and the
summary is the last that it logged. -/
structure Returned (logger directory : String) (fate : Candidate → Fate) (found : List Candidate)
    (r : Report) (credentials : List Credential) : Prop where
  result : r.result = .ok credentials
  loaded : credentials.Perm (found.filterMap fun c => (fate c).credential?)
  errors : r.errors.Perm (found.filterMap fun c => (fate c).record?)
  calls : r.calls.Perm (found.map (·.path))
  summaries : r.summaries = [summary logger credentials.length found.length directory]
  last : r.log.getLast? = some (summary logger credentials.length found.length directory)

variable {h : Host} {schedule : List Nat} {scanned : Scan.Result}

theorem load_of_scan (hs : scan h (.ofString directory) extension = .ok scanned) :
    load h mode schedule logger parser directory extension =
      { candidates mode schedule logger parser directory scanned.candidates with
        log := scanned.log ++
          (candidates mode schedule logger parser directory scanned.candidates).log } := by
  rw [load, hs]

/-- A load raises what becomes of some candidate, or returns what becomes of them all. -/
theorem load_cases (hm : mode.HasWorkers)
    (hs : scan h (.ofString directory) extension = .ok scanned) (schedule : List Nat)
    (logger : String) (parser : Parser) :
    (∃ c ∈ scanned.candidates, ∃ f, mode.fate logger parser c = .raised f ∧
      (load h mode schedule logger parser directory extension).result = .error f) ∨
    (∀ c ∈ scanned.candidates, ∀ f, mode.fate logger parser c ≠ .raised f) ∧
      ∃ credentials, Returned logger directory (mode.fate logger parser) scanned.candidates
        (load h mode schedule logger parser directory extension) credentials := by
  rw [load_of_scan hs]
  have hsettles := candidates_settles hm schedule logger parser directory scanned.candidates
  generalize candidates mode schedule logger parser directory scanned.candidates = r at hsettles
  cases hsettles with
  | @raises c f _ _ hc hf => exact .inl ⟨c, hc, f, hf, rfl⟩
  | @returns credentials errors calls hf hcred herr hcall =>
    -- The records of the candidates are all failures, so the two filters part them from the summary.
    have hlevel : ∀ r ∈ errors, r.level = .error := by
      intro r hr
      obtain ⟨c, -, hrec⟩ := List.mem_filterMap.1 (herr.mem_iff.1 hr)
      exact (tells_of_fate hrec).1.1
    have hkeep : errors.filter (·.level = .error) = errors :=
      List.filter_eq_self.2 fun r hr => by simpa using hlevel r hr
    have hdrop : errors.filter (·.level = .info) = [] :=
      List.filter_eq_nil_iff.2 fun r hr => by simp [hlevel r hr]
    refine .inr ⟨hf, credentials, rfl, hcred, ?_, hcall, ?_, ?_⟩
    · simpa [Report.errors, filter_scan_log hs, hkeep, summary] using herr
    · simp [Report.summaries, filter_scan_log hs, hdrop, summary]
    · simp [← List.append_assoc]

/-- Every credential that a load returns is that of a candidate. -/
theorem exists_of_mem_load {credentials : List Credential} {credential : Credential}
    (hr : (load h mode schedule logger parser directory extension).result = .ok credentials)
    (hc : credential ∈ credentials) :
    ∃ scanned, scan h (.ofString directory) extension = .ok scanned ∧
      ∃ c ∈ scanned.candidates, parser c.path = .ok credential := by
  cases hs : scan h (.ofString directory) extension with
  | error f =>
    rw [load, hs] at hr
    cases hr
  | ok scanned =>
    refine ⟨scanned, rfl, ?_⟩
    by_cases hm : mode.HasWorkers
    · rcases load_cases hm hs schedule logger parser with ⟨_, -, _, -, hf⟩ | ⟨-, returned, hret⟩
      · rw [hf] at hr
        cases hr
      · obtain rfl := Except.ok.inj (hret.result.symm.trans hr)
        obtain ⟨c, hmem, hcred⟩ := List.mem_filterMap.1 (hret.loaded.mem_iff.1 hc)
        rw [credential?_fate] at hcred
        exact ⟨c, hmem, Outcome.toOption_eq_some.1 hcred⟩
    · rw [load_of_scan hs, candidates_noWorkers hm] at hr
      cases hr

/-! ## The modes agree -/

/-- Two loads return the same credentials, log the same failures and hand the same paths to the
parser, as often; both log one summary, the same, and nothing after it. -/
structure Agree (a b : Report) : Prop where
  credentials : ∃ as bs, a.result = .ok as ∧ b.result = .ok bs ∧ as.Perm bs
  errors : a.errors.Perm b.errors
  calls : a.calls.Perm b.calls
  summary : ∃ r, a.summaries = [r] ∧ b.summaries = [r] ∧ a.log.getLast? = some r ∧
    b.log.getLast? = some r

theorem Returned.agree {fate fate' : Candidate → Fate} {found : List Candidate} {a b : Report}
    {as bs : List Credential} (ha : Returned logger directory fate found a as)
    (hb : Returned logger directory fate' found b bs) (hf : ∀ c ∈ found, fate c = fate' c) :
    Agree a b := by
  have hcred : (found.filterMap fun c => (fate c).credential?) =
      found.filterMap fun c => (fate' c).credential? :=
    List.filterMap_congr fun c hc => by rw [hf c hc]
  have hrec : (found.filterMap fun c => (fate c).record?) =
      found.filterMap fun c => (fate' c).record? :=
    List.filterMap_congr fun c hc => by rw [hf c hc]
  have hperm : as.Perm bs := ha.loaded.trans (hcred ▸ hb.loaded.symm)
  refine ⟨⟨as, bs, ha.result, hb.result, hperm⟩, ha.errors.trans (hrec ▸ hb.errors.symm),
    ha.calls.trans hb.calls.symm, _, ha.summaries, ?_, ha.last, ?_⟩
  · rw [hb.summaries, hperm.length_eq]
  · rw [hb.last, hperm.length_eq]

/-- If every failure can be logged, a load does the same in every mode and on every schedule, and
hands each candidate to the parser once. -/
theorem modes_agree (h : Host) (mode : Mode) (schedule schedule' : List Nat) (logger : String)
    (parser : Parser) (directory extension : String) (scanned : Scan.Result)
    (hm : mode.HasWorkers) (hs : scan h (.ofString directory) extension = .ok scanned)
    (hp : ∀ c ∈ scanned.candidates, ∀ f, parser c.path = .error f →
      f.kind ≠ .fatal ∧ ∃ m, f.rootMessage = .ok m) :
    Agree (load h mode schedule logger parser directory extension)
        (load h .sequential schedule' logger parser directory extension) ∧
      (load h mode schedule logger parser directory extension).calls.Perm
        (scanned.candidates.map (·.path)) := by
  -- A failure that can be logged has the same fate in every mode, so the two loads have one fate.
  have hfate : ∀ c ∈ scanned.candidates,
      (∀ f, mode.fate logger parser c ≠ .raised f) ∧
        mode.fate logger parser c = Mode.sequential.fate logger parser c := by
    intro c hc
    cases ho : parser c.path with
    | ok credential => simp [fate_of_ok ho]
    | error f =>
      obtain ⟨hk, m, hmsg⟩ := hp c hc f ho
      simp [fate_of_message ho hk hmsg]
  have hreturns : ∀ (mode' : Mode) (schedule : List Nat), mode'.HasWorkers →
      (∀ c ∈ scanned.candidates, mode.fate logger parser c = mode'.fate logger parser c) →
      ∃ credentials, Returned logger directory (mode'.fate logger parser) scanned.candidates
        (load h mode' schedule logger parser directory extension) credentials := by
    intro mode' schedule hm' heq
    rcases load_cases hm' hs schedule logger parser with ⟨c, hc, f, hf, -⟩ | ⟨-, hr⟩
    · exact absurd ((heq c hc).trans hf) ((hfate c hc).1 f)
    · exact hr
  obtain ⟨as, ha⟩ := hreturns mode schedule hm fun _ _ => rfl
  obtain ⟨bs, hb⟩ := hreturns .sequential schedule' trivial fun c hc => (hfate c hc).2
  exact ⟨ha.agree hb fun c hc => (hfate c hc).2, ha.calls⟩

/-- A directory with two metadata files. -/
def twoFiles : Host where
  files := ⟨[(["keys"], .directory), (["keys", "a.yaml"], .file []), (["keys", "b.yaml"], .file [])],
    by decide⟩
  workingDirectory := []
  home := "/home"

/-- A parser of the first of them only. -/
def firstOnly : Parser := fun p =>
  if p.name = "a.yaml" then .ok ⟨"0xaa", "file-raw", some p, none, none, none⟩
  else .error (.wrap .metadata "unreadable" (.ofText .notFound "missing"))

/-- The two files, as a scan finds them. -/
def twoFound : Scan.Result :=
  ⟨[⟨.ofString "keys/a.yaml", "yaml"⟩, ⟨.ofString "keys/b.yaml", "yaml"⟩], []⟩

theorem scan_twoFiles : scan twoFiles (.ofString "keys") "yaml" = .ok twoFound := by
  have he : Scan.normaliseExtension "yaml" = .ok "yaml" := Outcome.toOption_eq_some.1 (by decide +kernel)
  have hl : Scan.lookUp twoFiles (.ofString "keys") = .directory ["keys"] := rfl
  have hn : Scan.sortedNames twoFiles ["keys"] = ["a.yaml", "b.yaml"] := by
    rw [Scan.sortedNames, show twoFiles.files.names ["keys"] = ["a.yaml", "b.yaml"] by decide +kernel]
    exact List.mergeSort_of_pairwise (by decide)
  have ha : (["a.yaml", "b.yaml"].map (Scan.entry twoFiles "yaml" ["keys"] (.ofString "keys"))) =
      twoFound.candidates.map fun c => (some c, none) := by decide +kernel
  simp only [scan, he, Scan.directory, hl, hn, ha, bind, Except.bind, pure, Except.pure]
  rfl

theorem modes_agree_twoFiles :
    (Mode.concurrent (some 2)).HasWorkers ∧
    (∀ c ∈ twoFound.candidates, ∀ f, firstOnly c.path = .error f →
      f.kind ≠ .fatal ∧ ∃ m, f.rootMessage = .ok m) ∧
    Agree (load twoFiles (.concurrent (some 2)) [0, 1, 1, 0, 1, 0] "log" firstOnly "keys" "yaml")
      (load twoFiles .sequential [] "log" firstOnly "keys" "yaml") := by
  have hm : (Mode.concurrent (some 2)).HasWorkers := show (1 : Int) ≤ 2 by decide
  have hp : ∀ c ∈ twoFound.candidates, ∀ f, firstOnly c.path = .error f →
      f.kind ≠ .fatal ∧ ∃ m, f.rootMessage = .ok m := by
    intro c _ f hf
    simp only [firstOnly] at hf
    split at hf
    · cases hf
    · cases hf
      exact ⟨by decide, "missing", rfl⟩
  exact ⟨hm, hp, (modes_agree twoFiles _ [0, 1, 1, 0, 1, 0] [] "log" firstOnly "keys" "yaml"
    twoFound hm scan_twoFiles hp).1⟩

end Keyring.Load
