import Keyring.Proofs.Load.Modes
import Keyring.Proofs.MetadataFile
import Keyring.Proofs.Scan
/-!
# Loads of one file after the other

If every failure of the parser can be logged, a load of one file after the other returns the
credentials of the candidates and logs their failures, both in the order of the candidates
(`sequential_eq`). The failures of metadata files can, so every load of a directory of metadata files
goes through, whatever the directory holds (`load_inOrder`).
-/

namespace Keyring.Load

open Log Failure Outcome

variable {logger directory extension : String} {parser : Parser} {found : List Candidate}

/-! ## Credentials and records -/

/-- The credentials of the candidates that could be parsed. -/
def loaded (parser : Parser) (found : List Candidate) : List Credential :=
  found.filterMap fun c => (parser c.path).toOption

/-- The records of the candidates that could not. -/
def refused (logger : String) (parser : Parser) (found : List Candidate) : List Record :=
  found.filterMap fun c =>
    match parser c.path with
    | .ok _ => none
    | .error f => (f.rootMessage.map (failureRecord logger c.path)).toOption

theorem loaded_append (as bs : List Candidate) :
    loaded parser (as ++ bs) = loaded parser as ++ loaded parser bs :=
  List.filterMap_append

theorem refused_append (as bs : List Candidate) :
    refused logger parser (as ++ bs) = refused logger parser as ++ refused logger parser bs :=
  List.filterMap_append

theorem loaded_cons_of_ok {c : Candidate} {credential : Credential}
    (ho : parser c.path = .ok credential) :
    loaded parser (c :: found) = credential :: loaded parser found :=
  List.filterMap_cons_some (by rw [ho]; rfl)

theorem loaded_cons_of_error {c : Candidate} {f : Failure} (ho : parser c.path = .error f) :
    loaded parser (c :: found) = loaded parser found :=
  List.filterMap_cons_none (by rw [ho]; rfl)

theorem refused_cons_of_ok {c : Candidate} {credential : Credential}
    (ho : parser c.path = .ok credential) :
    refused logger parser (c :: found) = refused logger parser found :=
  List.filterMap_cons_none (by rw [ho])

theorem refused_cons_of_error {c : Candidate} {f : Failure} {m : String}
    (ho : parser c.path = .error f) (hm : f.rootMessage = .ok m) :
    refused logger parser (c :: found) =
      failureRecord logger c.path m :: refused logger parser found :=
  List.filterMap_cons_some (by rw [ho]; simp only [hm]; rfl)

/-- The record `r` tells what the failure to parse the candidate was at its root. -/
def TellsRoot (logger : String) (parser : Parser) (c : Candidate) (r : Record) : Prop :=
  ∃ f m, parser c.path = .error f ∧ f.rootMessage = .ok m ∧ r = failureRecord logger c.path m

/-- Every failure of the parser on the candidates can be logged. -/
def AllLoggable (parser : Parser) (found : List Candidate) : Prop :=
  ∀ c ∈ found, FailsOnly Loggable (parser c.path)

/-- One record for each candidate that could not be parsed, in their order. -/
theorem refused_tellsRoot (hp : AllLoggable parser found) :
    List.Forall₂ (TellsRoot logger parser) (found.filter fun c => (parser c.path).toOption.isNone)
      (refused logger parser found) := by
  induction found with
  | nil => exact .nil
  | cons c found ih =>
    have ih := ih fun d hd => hp d (List.mem_cons_of_mem _ hd)
    cases ho : parser c.path with
    | ok credential =>
      rw [refused_cons_of_ok ho, List.filter_cons_of_neg (by simp [ho, Except.toOption])]
      exact ih
    | error f =>
      obtain ⟨m, hm⟩ := (hp c List.mem_cons_self f ho).rootMessage
      rw [refused_cons_of_error ho hm, List.filter_cons_of_pos (by simp [ho, Except.toOption])]
      exact .cons ⟨f, m, ho, hm, rfl⟩ ih

/-- Every candidate gives a credential or a record. -/
theorem length_loaded_add (hp : AllLoggable parser found) :
    (loaded parser found).length + (refused logger parser found).length = found.length := by
  induction found with
  | nil => rfl
  | cons c found ih =>
    have ih := ih fun d hd => hp d (List.mem_cons_of_mem _ hd)
    cases ho : parser c.path with
    | ok credential =>
      rw [loaded_cons_of_ok ho, refused_cons_of_ok ho, List.length_cons, List.length_cons]
      omega
    | error f =>
      obtain ⟨m, hm⟩ := (hp c List.mem_cons_self f ho).rootMessage
      rw [loaded_cons_of_error ho, refused_cons_of_error ho hm, List.length_cons, List.length_cons]
      omega

/-! ## One file after the other -/

theorem reportAll_of_loggable (hp : AllLoggable parser found) :
    reportAll logger (found.map fun c => (c, parser c.path)) =
      (refused logger parser found, none) := by
  induction found with
  | nil => rfl
  | cons c found ih =>
    have ih := ih fun d hd => hp d (List.mem_cons_of_mem _ hd)
    rw [List.map_cons]
    cases ho : parser c.path with
    | ok credential => rw [reportAll, ih, refused_cons_of_ok ho]
    | error f =>
      obtain ⟨m, hm⟩ := (hp c List.mem_cons_self f ho).rootMessage
      have hreport : reportFailure logger c.path f = .ok (failureRecord logger c.path m) := by
        rw [reportFailure, hm]
        rfl
      simp only [reportAll, hreport, ih, refused_cons_of_error ho hm]

/-- Nothing is lost, and everything is in the order of the candidates. -/
theorem sequential_eq (hp : AllLoggable parser found) :
    sequential logger parser directory found =
      ⟨.ok (loaded parser found),
        refused logger parser found ++
          [summary logger (loaded parser found).length found.length directory],
        found.map (·.path)⟩ := by
  have hparse : parseAll parser found =
      (.ok (found.map fun c => parser c.path), found.map (·.path)) := by
    rcases parseAll_cases parser found with ⟨c, hc, f, _, hf, hk, -⟩ | ⟨-, hparse⟩
    · exact absurd hk (hp c hc f hf).kind_ne
    · exact hparse
  have hloaded : (Aggregator.empty.collect
      ((found.map fun c => parser c.path).map Except.toOption)).results = loaded parser found :=
    results_collect_outcomes parser found
  simp only [sequential, hparse, zip_outcomes, reportAll_of_loggable hp,
    Aggregator.size_eq_length_results, hloaded]

/-! ## Directories of metadata files -/

theorem allLoggable_load (h : Host) (found : List Candidate) :
    AllLoggable (MetadataFile.load .builtin h) found :=
  fun c _ => MetadataFile.load_loggable h c.path

theorem level_of_mem_refused {r : Record} (hr : r ∈ refused logger parser found) :
    r.level = .error := by
  obtain ⟨c, -, hrec⟩ := List.mem_filterMap.1 hr
  split at hrec
  · cases hrec
  · next f _ =>
    cases hm : f.rootMessage with
    | ok m => rw [hm] at hrec; cases hrec; rfl
    | error g => rw [hm] at hrec; cases hrec

/-- The whole report of a load of one file after the other. -/
theorem load_sequential_eq {h : Host} {scanned : Scan.Result} {schedule : List Nat}
    (hs : scan h (.ofString directory) extension = .ok scanned)
    (hp : AllLoggable parser scanned.candidates) :
    load h .sequential schedule logger parser directory extension =
      ⟨.ok (loaded parser scanned.candidates),
        scanned.log ++ (refused logger parser scanned.candidates ++
          [summary logger (loaded parser scanned.candidates).length scanned.candidates.length
            directory]),
        scanned.candidates.map (·.path)⟩ := by
  rw [load_of_scan hs, candidates, sequential_eq hp]

theorem errors_load_sequential {h : Host} {scanned : Scan.Result} {schedule : List Nat}
    (hs : scan h (.ofString directory) extension = .ok scanned)
    (hp : AllLoggable parser scanned.candidates) :
    (load h .sequential schedule logger parser directory extension).errors =
      refused logger parser scanned.candidates := by
  have hkeep : (refused logger parser scanned.candidates).filter (·.level = .error) =
      refused logger parser scanned.candidates :=
    List.filter_eq_self.2 fun r hr => by simpa using level_of_mem_refused hr
  rw [load_sequential_eq hs hp]
  simp [Report.errors, filter_scan_log hs, hkeep, summary]

theorem summaries_load_sequential {h : Host} {scanned : Scan.Result} {schedule : List Nat}
    (hs : scan h (.ofString directory) extension = .ok scanned)
    (hp : AllLoggable parser scanned.candidates) :
    (load h .sequential schedule logger parser directory extension).summaries =
      [summary logger (loaded parser scanned.candidates).length scanned.candidates.length
        directory] := by
  have hdrop : (refused logger parser scanned.candidates).filter (·.level = .info) = [] :=
    List.filter_eq_nil_iff.2 fun r hr => by simp [level_of_mem_refused hr]
  rw [load_sequential_eq hs hp]
  simp [Report.summaries, filter_scan_log hs, hdrop, summary]

/-- The report of a load that accounts for all candidates in their order: the credentials of those
that could be parsed, a record with the message at the root for each of the others, and the summary,
whose numbers are those of the credentials and of the candidates. -/
structure InOrder (logger directory : String) (parser : Parser) (found : List Candidate)
    (r : Report) (credentials : List Credential) : Prop where
  result : r.result = .ok credentials
  credentials_eq : credentials = found.filterMap fun c => (parser c.path).toOption
  errors : List.Forall₂ (TellsRoot logger parser)
    (found.filter fun c => (parser c.path).toOption.isNone) r.errors
  length_eq : credentials.length + r.errors.length = found.length
  calls : r.calls = found.map (·.path)
  summaries : r.summaries = [summary logger credentials.length found.length directory]
  last : r.log.getLast? = some (summary logger credentials.length found.length directory)

theorem inOrder_of_loggable {h : Host} {scanned : Scan.Result}
    (hs : scan h (.ofString directory) extension = .ok scanned)
    (hp : AllLoggable parser scanned.candidates) (schedule : List Nat) (logger : String) :
    InOrder logger directory parser scanned.candidates
      (load h .sequential schedule logger parser directory extension)
      (loaded parser scanned.candidates) := by
  have herr : (load h .sequential schedule logger parser directory extension).errors =
      refused logger parser scanned.candidates := errors_load_sequential hs hp
  constructor
  case result => rw [load_sequential_eq hs hp]
  case credentials_eq => rfl
  case errors => rw [herr]; exact refused_tellsRoot hp
  case length_eq => rw [herr]; exact length_loaded_add hp
  case calls => rw [load_sequential_eq hs hp]
  case summaries => exact summaries_load_sequential hs hp
  case last => rw [load_sequential_eq hs hp]; simp [← List.append_assoc]

/-- A load of metadata files, one after the other, goes through whatever there is in the directory
and wherever its path leads: it accounts for all candidates, in the order of their names. -/
theorem load_inOrder (h : Host) (schedule : List Nat) (logger directory extension e : String)
    (he : Scan.normaliseExtension extension = .ok e) :
    ∃ (scanned : Scan.Result) (names : List String) (credentials : List Credential),
      scan h (.ofString directory) extension = .ok scanned ∧ names.Pairwise (· < ·) ∧
      scanned.candidates = names.map (Scan.candidate (.ofString directory) e) ∧
      InOrder logger directory (MetadataFile.load .builtin h) scanned.candidates
        (load h .sequential schedule logger (MetadataFile.load .builtin h) directory extension)
        credentials := by
  have hs := Scan.scan_of_normaliseExtension he h (.ofString directory)
  obtain ⟨names, hnames, hfound⟩ := Scan.candidates_of_scan he hs
  exact ⟨_, names, _, hs, hnames, hfound,
    inOrder_of_loggable hs (allLoggable_load h _) schedule logger⟩

theorem load_inOrder_twoFiles : Scan.normaliseExtension "yaml" = .ok "yaml" ∧
    ∃ credentials, InOrder "log" "keys" (MetadataFile.load .builtin twoFiles) twoFound.candidates
      (load twoFiles .sequential [] "log" (MetadataFile.load .builtin twoFiles) "keys" "yaml")
      credentials := by
  have he : Scan.normaliseExtension "yaml" = .ok "yaml" := toOption_eq_some.1 (by decide +kernel)
  obtain ⟨scanned, -, credentials, hs, -, -, horder⟩ :=
    load_inOrder twoFiles [] "log" "keys" "yaml" "yaml" he
  obtain rfl := Except.ok.inj (hs.symm.trans scan_twoFiles)
  exact ⟨he, credentials, horder⟩

end Keyring.Load
