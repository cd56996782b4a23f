import Keyring.Proofs.Credential
import Keyring.Proofs.Failure.Chain
import Keyring.Proofs.Load.Account
import Keyring.Proofs.MetadataFile
/-!
# What is told of a handler's failure

A load tells of each candidate once at most, also if it raises a failure in the end (`errors_subperm`).
The failure of a handler is wrapped, or it is not if it is one of the metadata; its root stays the same,
and so the record of the file carries the message at that root (`load_handlerFailure`).
-/

namespace Keyring

namespace Load

open Log

variable {h : Host} {mode : Mode} {schedule : List Nat} {logger directory extension : String}
  {parser : Parser} {scanned : Scan.Result}

/-! ## No candidate is told of twice -/

theorem Fate.logUntil_sublist (fates : List Fate) :
    (logUntil fates).1.Sublist (fates.filterMap record?) := by
  induction fates with
  | nil => exact .slnil
  | cons fate fates ih =>
    cases fate with
    | raised f => exact List.nil_sublist _
    | logged record => exact ih.cons_cons record
    | loaded _ | lost => exact ih

/-- The summary tells of no failure. -/
theorem filter_error_sublist {records : List Record} {more : List Record}
    (hmore : ∀ r ∈ more, r.level = .info) :
    ((records ++ more).filter (·.level = .error)).Sublist records := by
  have hnone : more.filter (·.level = .error) = [] :=
    List.filter_eq_nil_iff.2 fun r hr => by simp [hmore r hr]
  rw [List.filter_append, hnone, List.append_nil]
  exact List.filter_sublist

theorem sequential_log (logger : String) (parser : Parser) (directory : String)
    (found : List Candidate) : ∃ records more,
      (sequential logger parser directory found).log = records ++ more ∧
      records.Subperm (found.filterMap fun c => (Fate.alone logger c.path (parser c.path)).record?) ∧
      ∀ r ∈ more, r.level = .info := by
  rcases parseAll_cases parser found with ⟨c, -, f, calls, -, -, hparse⟩ | ⟨hf, hparse⟩
  · rw [sequential, hparse]
    exact ⟨[], [], rfl, List.nil_subperm, by simp⟩
  · have hsub := Fate.logUntil_sublist (found.map fun c => .alone logger c.path (parser c.path))
    rw [List.filterMap_map] at hsub
    simp only [sequential, hparse, zip_outcomes, reportAll_eq logger parser found hf]
    generalize Fate.logUntil (found.map fun c => .alone logger c.path (parser c.path)) = told at hsub
    obtain ⟨records, _ | f⟩ := told
    · exact ⟨records, [_], rfl, hsub.subperm, by simp [summary]⟩
    · exact ⟨records, [], (List.append_nil _).symm, hsub.subperm, by simp⟩

open Pool in
theorem concurrent_log (crew : Crew) (hw : crew.candidates ≠ [] → 0 < crew.workers)
    (schedule : List Nat) (directory : String) : ∃ records more,
      (concurrent crew schedule directory).log = records ++ more ∧
      records.Subperm (crew.candidates.filterMap fun c =>
        (Fate.pooled crew.logger c.path (crew.parser c.path)).record?) ∧
      ∀ r ∈ more, r.level = .info := by
  have hsub := Fate.logUntil_sublist
    (crew.candidates.map fun c => late crew.logger c.path (ending (crew.parser c.path)))
  rw [List.filterMap_map] at hsub
  -- The workers log all first records, and the end some of the late ones.
  have hall {records : List Record} (hrecords : records.Sublist (crew.candidates.filterMap
      fun c => (late crew.logger c.path (ending (crew.parser c.path))).record?)) :
      ((run crew schedule).log ++ records).Subperm (crew.candidates.filterMap fun c =>
        (Fate.pooled crew.logger c.path (crew.parser c.path)).record?) := by
    simp only [record?_eq_or]
    refine List.Subperm.trans ?_ (filterMap_or fun c _ =>
      firstRecord_eq_none_or crew.logger c.path (crew.parser c.path)).subperm
    exact (log_run crew hw schedule).subperm.append hrecords.subperm
  rw [concurrent, reportEnds_run crew hw]
  generalize Fate.logUntil (crew.candidates.map fun c =>
    late crew.logger c.path (ending (crew.parser c.path))) = told at hsub ⊢
  obtain ⟨records, _ | f⟩ := told
  · exact ⟨_, [_], rfl, hall hsub, by simp [summary]⟩
  · exact ⟨_, [], (List.append_nil _).symm, hall hsub, by simp⟩

theorem candidates_log (mode : Mode) (schedule : List Nat) (logger : String) (parser : Parser)
    (directory : String) (found : List Candidate) : ∃ records more,
      (candidates mode schedule logger parser directory found).log = records ++ more ∧
      records.Subperm (found.filterMap fun c => (mode.fate logger parser c).record?) ∧
      ∀ r ∈ more, r.level = .info := by
  by_cases hm : mode.HasWorkers
  · rcases candidates_cases hm schedule logger parser directory found with
      ⟨rfl, hc⟩ | ⟨hne, workers, hw, hc⟩
    · rw [hc]
      simpa only [fate_sequential] using sequential_log logger parser directory found
    · rw [hc]
      simpa only [fate_of_ne hne] using
        concurrent_log ⟨workers, logger, parser, found⟩ hw schedule directory
  · rw [candidates_noWorkers hm]
    exact ⟨[], [], rfl, List.nil_subperm, by simp⟩

/-- Of each candidate a load tells once at most, and only what its fate is, however the load ends. -/
theorem errors_subperm (hs : scan h (.ofString directory) extension = .ok scanned) :
    (load h mode schedule logger parser directory extension).errors.Subperm
      (scanned.candidates.filterMap fun c => (mode.fate logger parser c).record?) := by
  obtain ⟨records, more, hlog, hsub, hmore⟩ :=
    candidates_log mode schedule logger parser directory scanned.candidates
  rw [load_of_scan hs, Report.errors, hlog, List.filter_append,
    filter_scan_log hs (by decide) (by decide), List.nil_append]
  exact (filter_error_sublist hmore).subperm.trans hsub

/-- A record is all that a load tells of a candidate. The rest tells of others; only a load that raises
a failure may not have come to log it. -/
def TellsOnce (scanned : Scan.Result) (c : Candidate) (record : Record) (report : Report) : Prop :=
  ∃ others, (∀ r ∈ others, ∃ d ∈ scanned.candidates.erase c, Tells d.path r) ∧
    (report.errors.Perm (record :: others) ∨
      (∃ f, report.result = .error f) ∧ report.errors.Perm others)

/-- What is logged of a candidate is logged once. -/
theorem tellsOnce_of_fate (hs : scan h (.ofString directory) extension = .ok scanned) {c : Candidate}
    (hc : c ∈ scanned.candidates) {record : Record}
    (hfate : mode.fate logger parser c = .logged record) :
    TellsOnce scanned c record (load h mode schedule logger parser directory extension) := by
  let others := (scanned.candidates.erase c).filterMap fun d => (mode.fate logger parser d).record?
  have htell : ∀ r ∈ others, ∃ d ∈ scanned.candidates.erase c, Tells d.path r := by
    intro r hr
    obtain ⟨d, hd, hrec⟩ := List.mem_filterMap.1 hr
    exact ⟨d, hd, (tells_of_fate hrec).1⟩
  have hall : (scanned.candidates.filterMap fun d => (mode.fate logger parser d).record?).Perm
      (record :: others) := by
    refine ((List.perm_cons_erase hc).filterMap _).trans ?_
    rw [List.filterMap_cons_some (by rw [hfate]; rfl)]
  have hreturned : (∃ f, (load h mode schedule logger parser directory extension).result = .error f) ∨
      (load h mode schedule logger parser directory extension).errors.Perm (record :: others) := by
    by_cases hm : mode.HasWorkers
    · rcases load_cases hm hs schedule logger parser with ⟨-, -, f, -, hr⟩ | ⟨-, credentials, hr⟩
      · exact .inl ⟨f, hr⟩
      · exact .inr (hr.errors.trans hall)
    · refine .inl ⟨noWorkers, ?_⟩
      rw [load_of_scan hs, candidates_noWorkers hm]
  rcases hreturned with hraised | herrors
  · obtain ⟨told, htold, hsub⟩ := (errors_subperm hs).trans hall.subperm
    rcases List.sublist_cons_iff.1 hsub with hrest | ⟨rest, rfl, hrest⟩
    · exact ⟨told, fun r hr => htell r (hrest.subset hr), .inr ⟨hraised, htold.symm⟩⟩
    · exact ⟨rest, fun r hr => htell r (hrest.subset hr), .inl htold.symm⟩
  · exact ⟨others, htell, .inl herrors⟩

end Load

/-! ## Failures of handlers -/

/-- The failure `f` is a new one of the metadata, with `e` as its cause. -/
structure Failure.IsCausedBy (f e : Failure) : Prop where
  kind : f.kind = .metadata
  nodes : f.nodes = e.nodes ++ [f.node]
  top : f.top = e.nodes.length
  cause : f.node.cause? = some e.top

theorem Failure.isCausedBy_wrap (e : Failure) (text : String) :
    (e.wrap .metadata text).IsCausedBy e := by
  have hnode : (e.wrap .metadata text).node =
      { kind := .metadata, message := .text text, cause? := some e.top, context? := some e.top,
        suppress := true } := by
    simp [Failure.node, Failure.wrap]
  exact ⟨kind_wrap, by rw [hnode]; rfl, rfl, by rw [hnode]⟩

namespace MetadataFile

open Failure Outcome

variable {r : Registry} {h : Host} {p : Path} {e : Failure}

/-- A handler's failure is passed on or wrapped. -/
theorem handlerFailure_eq (hk : e.kind ≠ .fatal) : handlerFailure p e =
    if e.kind.isMetadata then e
    else e.wrap .metadata ("Failed to create signer from " ++ toString p) := by
  simp [handlerFailure, hk]

theorem rootMessage_handlerFailure {m : String} (hm : e.rootMessage = .ok m) :
    (handlerFailure p e).rootMessage = .ok m := by
  unfold handlerFailure
  split
  · exact hm
  · exact rootMessage_wrap hm

theorem load_of_create_error {text : List Char} {d : Yaml.Document} {type : Datum} {handler : Handler}
    (hread : h.readText p = .ok text) (hdoc : Yaml.Document.read text = .ok d)
    (htype : d.get? "type" = some type) (hchoose : r.choose type = .ok handler)
    (hcreate : handler.create h ⟨d.get?⟩ p.parent p = .error e) :
    load r h p = .error (handlerFailure p e) := by
  rw [load_of_get? r hread hdoc htype, create]
  simp only [htype, hchoose]
  change (handler.create h ⟨d.get?⟩ p.parent p).mapError (handlerFailure p) = _
  rw [hcreate]
  rfl

/-- The failure of a handler keeps its root, however it is linked: one of the metadata is passed on,
and any other becomes the cause of a new one. What a load of a directory tells of the file is the
message of that root, once, if it can be had. -/
theorem load_handlerFailure (r : Registry) (h : Host) (p : Path) (text : List Char) (d : Yaml.Document)
    (type : Datum) (handler : Handler) (e : Failure) (hread : h.readText p = .ok text)
    (hdoc : Yaml.Document.read text = .ok d) (htype : d.get? "type" = some type)
    (hchoose : r.choose type = .ok handler)
    (hcreate : handler.create h ⟨d.get?⟩ p.parent p = .error e) (hk : e.kind ≠ .fatal) :
    ∃ f, load r h p = .error f ∧
      (e.kind.isMetadata = true ∧ f = e ∨ e.kind.isMetadata = false ∧ f.IsCausedBy e) ∧
      f.rootIndex = e.rootIndex ∧ f.rootNode = e.rootNode ∧
      ∀ mode schedule logger directory extension scanned c m,
        scan h (.ofString directory) extension = .ok scanned → c ∈ scanned.candidates → c.path = p →
        e.rootMessage = .ok m →
        Load.TellsOnce scanned c (Load.failureRecord logger p m)
          (Keyring.load h mode schedule logger (load r h) directory extension) := by
  have hload := load_of_create_error hread hdoc htype hchoose hcreate
  have hkind : (handlerFailure p e).kind ≠ .fatal := by
    intro hf
    have hmeta := handlerFailure_cases (p := p) hk
    rw [hf] at hmeta
    cases hmeta
  refine ⟨handlerFailure p e, hload, ?_, ?_, ?_, ?_⟩
  · rw [handlerFailure_eq hk]
    cases hmeta : e.kind.isMetadata with
    | true => exact .inl ⟨rfl, rfl⟩
    | false => exact .inr ⟨rfl, e.isCausedBy_wrap _⟩
  · rw [handlerFailure_eq hk]
    split
    · rfl
    · exact e.rootIndex_wrap
  · rw [handlerFailure_eq hk]
    split
    · rfl
    · exact e.rootNode_wrap
  · rintro mode schedule logger directory extension scanned c m hs hc rfl hm
    exact Load.tellsOnce_of_fate hs hc
      (Load.fate_of_message hload hkind (rootMessage_handlerFailure hm))

/-- Two failures, each the reason for the other. -/
def loopedFailure : Failure where
  nodes := [{ kind := .general, message := .text "vault", cause? := some 1 },
    { kind := .value, message := .text "sealed", context? := some 0 }]
  top := 0
  top_lt := by decide

/-- A handler of keystores that always fails. -/
def vaultHandler : Handler where
  number := 2
  name := "VaultHandler"
  types := ["file-keystore"]
  priority := 0
  create := fun _ _ _ _ => .error loopedFailure

def vaultRegistry : Registry :=
  (Registry.empty.register vaultHandler).1

/-- The text of a value that is a text. -/
def asText? : Datum → Option String
  | .str s => some s
  | _ => none

theorem load_handlerFailure_keystoreHost : ∃ text d type,
    keystoreHost.readText (.ofString "keys/a.yaml") = .ok text ∧ Yaml.Document.read text = .ok d ∧
    d.get? "type" = some type ∧ vaultRegistry.choose type = .ok vaultHandler ∧
    vaultHandler.create keystoreHost ⟨d.get?⟩ (Path.ofString "keys/a.yaml").parent
      (.ofString "keys/a.yaml") = .error loopedFailure ∧ loopedFailure.kind ≠ .fatal ∧
    loopedFailure.rootMessage = .ok "sealed" ∧
    (∃ f, load vaultRegistry keystoreHost (.ofString "keys/a.yaml") = .error f ∧
      f.IsCausedBy loopedFailure ∧ f.rootIndex = 1) ∧
    Load.TellsOnce ⟨[⟨.ofString "keys/a.yaml", "yaml"⟩], []⟩ ⟨.ofString "keys/a.yaml", "yaml"⟩
      (Load.failureRecord "log" (.ofString "keys/a.yaml") "sealed")
      (Keyring.load keystoreHost .async [] "log" (load vaultRegistry keystoreHost) "keys" "yaml") := by
  have htext : ((keystoreHost.readText (.ofString "keys/a.yaml")).toOption.bind fun text =>
      (Yaml.Document.read text).toOption.bind fun d => (d.get? "type").bind asText?) =
      some "file-keystore" := by
    decide +kernel
  simp only [Option.bind_eq_some_iff, toOption_eq_some] at htext
  obtain ⟨text, hread, d, hdoc, type, htype, hstr⟩ := htext
  have hchoose : vaultRegistry.choose type = .ok vaultHandler := by
    cases type <;> cases hstr
    rfl
  have hk : loopedFailure.kind ≠ .fatal := by decide
  have hm : loopedFailure.rootMessage = .ok "sealed" := rfl
  obtain ⟨f, hload, hf, hindex, -, htells⟩ := load_handlerFailure vaultRegistry keystoreHost
    (.ofString "keys/a.yaml") text d type vaultHandler loopedFailure hread hdoc htype hchoose rfl hk
  refine ⟨text, d, type, hread, hdoc, htype, hchoose, rfl, hk, hm, ⟨f, hload, ?_, hindex⟩, ?_⟩
  · rcases hf with ⟨hmeta, -⟩ | ⟨-, hcaused⟩
    · cases hmeta
    · exact hcaused
  · exact htells .async [] "log" "keys" "yaml" _ _ "sealed" scan_keystoreHost List.mem_cons_self rfl hm

end MetadataFile

end Keyring
