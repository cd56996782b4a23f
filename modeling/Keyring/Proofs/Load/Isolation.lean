import Keyring.Proofs.Load.InOrder
/-!
# Loads before and after a file is written

A load of one file after the other treats every file on its own: one candidate more gives one
credential or one record more, at its place, and changes nothing of the others (`oneMore_of_scan`). A
new metadata file is such a candidate (`load_withFile`). Where a link of the directory led nowhere and
leads to the new file, there are two (`load_dangling`).
-/

namespace Keyring.Load

open Log Failure Outcome

variable {logger directory extension : String} {parser parser' : Parser} {found : List Candidate}

/-! ## Parsers that agree -/

theorem loaded_congr (hp : ∀ c ∈ found, parser' c.path = parser c.path) :
    loaded parser' found = loaded parser found :=
  List.filterMap_congr fun c hc => by rw [hp c hc]

theorem refused_congr (hp : ∀ c ∈ found, parser' c.path = parser c.path) :
    refused logger parser' found = refused logger parser found :=
  List.filterMap_congr fun c hc => by rw [hp c hc]

/-! ## One candidate more -/

/-- The report `r'` has, between what became of the candidates `before` and of those `after`, a
credential or a record for the candidate `c`, whose outcome is that of `parser'`. The report `r` has
the others only. -/
structure OneMore (logger : String) (parser parser' : Parser) (before : List Candidate)
    (c : Candidate) (after : List Candidate) (r r' : Report) : Prop where
  result : r.result = .ok (loaded parser before ++ loaded parser after)
  errors : r.errors = refused logger parser before ++ refused logger parser after
  outcome :
    (∃ credential, parser' c.path = .ok credential ∧
      r'.result = .ok (loaded parser before ++ credential :: loaded parser after) ∧
      r'.errors = r.errors) ∨
    ∃ record, TellsRoot logger parser' c record ∧ r'.result = r.result ∧
      r'.errors = refused logger parser before ++ record :: refused logger parser after

theorem oneMore_of_scan {h h' : Host} {scanned scanned' : Scan.Result} {c : Candidate}
    {before after : List Candidate} (hs : scan h (.ofString directory) extension = .ok scanned)
    (hs' : scan h' (.ofString directory) extension = .ok scanned')
    (hfound : scanned.candidates = before ++ after)
    (hfound' : scanned'.candidates = before ++ c :: after)
    (hp' : AllLoggable parser' scanned'.candidates)
    (hsame : ∀ d ∈ scanned.candidates, parser' d.path = parser d.path)
    (schedule schedule' : List Nat) (logger : String) :
    OneMore logger parser parser' before c after
      (load h .sequential schedule logger parser directory extension)
      (load h' .sequential schedule' logger parser' directory extension) := by
  rw [hfound] at hsame
  rw [hfound'] at hp'
  have hbefore : ∀ d ∈ before, parser' d.path = parser d.path :=
    fun d hd => hsame d (List.mem_append_left _ hd)
  have hafter : ∀ d ∈ after, parser' d.path = parser d.path :=
    fun d hd => hsame d (List.mem_append_right _ hd)
  have hp : AllLoggable parser scanned.candidates := by
    rw [hfound]
    intro d hd
    rw [← hsame d hd]
    refine hp' d ?_
    rcases List.mem_append.1 hd with hd | hd
    · exact List.mem_append_left _ hd
    · exact List.mem_append_right _ (List.mem_cons_of_mem _ hd)
  have hresult : (load h .sequential schedule logger parser directory extension).result =
      .ok (loaded parser before ++ loaded parser after) := by
    rw [load_sequential_eq hs hp, hfound, loaded_append]
  have herrors : (load h .sequential schedule logger parser directory extension).errors =
      refused logger parser before ++ refused logger parser after := by
    rw [errors_load_sequential hs hp, hfound, refused_append]
  have hresult' : (load h' .sequential schedule' logger parser' directory extension).result =
      .ok (loaded parser before ++ loaded parser' (c :: after)) := by
    rw [load_sequential_eq hs' (hfound' ▸ hp'), hfound', loaded_append, loaded_congr hbefore]
  have herrors' : (load h' .sequential schedule' logger parser' directory extension).errors =
      refused logger parser before ++ refused logger parser' (c :: after) := by
    rw [errors_load_sequential hs' (hfound' ▸ hp'), hfound', refused_append, refused_congr hbefore]
  refine ⟨hresult, herrors, ?_⟩
  cases ho : parser' c.path with
  | ok credential =>
    left
    refine ⟨credential, rfl, ?_, ?_⟩
    · rw [hresult', loaded_cons_of_ok ho, loaded_congr hafter]
    · rw [herrors', refused_cons_of_ok ho, refused_congr hafter, herrors]
  | error f =>
    obtain ⟨m, hm⟩ := (hp' c (List.mem_append_right _ List.mem_cons_self) f ho).rootMessage
    right
    refine ⟨failureRecord logger c.path m, ⟨f, m, ho, hm, rfl⟩, ?_, ?_⟩
    · rw [hresult', loaded_cons_of_error ho, loaded_congr hafter, hresult]
    · rw [herrors', refused_cons_of_error ho hm, refused_congr hafter]

/-! ## A new metadata file -/

/-- A new metadata file, whatever its bytes, is one credential or one record more, at the place of its
name: the other files do not notice. -/
theorem load_withFile (h : Host) (schedule schedule' : List Nat)
    (logger directory extension e : String) (l : Location) (name : String) (bytes : List UInt8)
    (he : Scan.normaliseExtension extension = .ok e)
    (hnew : Scan.Fresh h e l (.ofString directory) name)
    (hlinks : Scan.Unlinked h e l (.ofString directory) name bytes)
    (hsame : ∀ c ∈ (Scan.directory h (.ofString directory) e).candidates,
      MetadataFile.load .builtin (h.withFile (l ++ [name]) bytes) c.path =
        MetadataFile.load .builtin h c.path) :
    ∃ before after : List String, (before ++ name :: after).Pairwise (· < ·) ∧
      (Scan.directory h (.ofString directory) e).candidates =
        (before ++ after).map (Scan.candidate (.ofString directory) e) ∧
      OneMore logger (MetadataFile.load .builtin h)
        (MetadataFile.load .builtin (h.withFile (l ++ [name]) bytes))
        (before.map (Scan.candidate (.ofString directory) e))
        (Scan.candidate (.ofString directory) e name)
        (after.map (Scan.candidate (.ofString directory) e))
        (load h .sequential schedule logger (MetadataFile.load .builtin h) directory extension)
        (load (h.withFile (l ++ [name]) bytes) .sequential schedule' logger
          (MetadataFile.load .builtin (h.withFile (l ++ [name]) bytes)) directory extension) := by
  have hs (host : Host) := Scan.scan_of_normaliseExtension he host (.ofString directory)
  obtain ⟨before, after, hsorted, hfound, hfound'⟩ := Scan.candidates_withFile hnew hlinks
  refine ⟨before, after, hsorted, hfound, ?_⟩
  rw [List.map_append] at hfound hfound'
  exact oneMore_of_scan (hs h) (hs _) hfound hfound' (allLoggable_load _ _) hsame schedule schedule'
    logger

theorem load_withFile_twoFiles : Scan.normaliseExtension "yaml" = .ok "yaml" ∧
    Scan.Fresh twoFiles "yaml" ["keys"] (.ofString "keys") "ab.yaml" ∧
    Scan.Unlinked twoFiles "yaml" ["keys"] (.ofString "keys") "ab.yaml" [0xff] ∧
    ∃ before after, OneMore "log" (MetadataFile.load .builtin twoFiles)
      (MetadataFile.load .builtin (twoFiles.withFile ["keys", "ab.yaml"] [0xff])) before
      (Scan.candidate (.ofString "keys") "yaml" "ab.yaml") after
      (load twoFiles .sequential [] "log" (MetadataFile.load .builtin twoFiles) "keys" "yaml")
      (load (twoFiles.withFile ["keys", "ab.yaml"] [0xff]) .sequential [] "log"
        (MetadataFile.load .builtin (twoFiles.withFile ["keys", "ab.yaml"] [0xff])) "keys" "yaml") := by
  have he : Scan.normaliseExtension "yaml" = .ok "yaml" := toOption_eq_some.1 (by decide +kernel)
  have hnew : Scan.Fresh twoFiles "yaml" ["keys"] (.ofString "keys") "ab.yaml" := by
    constructor
    case directory => rfl
    case absent => decide
    case isName => decide
    case visible => decide +kernel
    case hasExtension => decide +kernel
  have hlinks : Scan.Unlinked twoFiles "yaml" ["keys"] (.ofString "keys") "ab.yaml" [0xff] := by
    intro other target hlink
    rw [FileTree.at?, if_neg (by simp), List.lookup_eq_some_iff] at hlink
    obtain ⟨as, bs, hentries, -⟩ := hlink
    have hm : (["keys"] ++ [other], Entry.link target) ∈ twoFiles.files.entries := by
      rw [hentries]
      simp
    simp [twoFiles] at hm
  have hsame : ∀ c ∈ (Scan.directory twoFiles (.ofString "keys") "yaml").candidates,
      MetadataFile.load .builtin (twoFiles.withFile ["keys", "ab.yaml"] [0xff]) c.path =
        MetadataFile.load .builtin twoFiles c.path := by
    have hfound : Scan.directory twoFiles (.ofString "keys") "yaml" = twoFound :=
      Except.ok.inj ((Scan.scan_of_normaliseExtension he _ _).symm.trans scan_twoFiles)
    rw [hfound]
    intro c hc
    rcases List.mem_pair.1 hc with rfl | rfl
    · rfl
    · rfl
  obtain ⟨before, after, -, -, hmore⟩ :=
    load_withFile twoFiles [] [] "log" "keys" "yaml" "yaml" ["keys"] "ab.yaml" [0xff] he hnew hlinks
      hsame
  exact ⟨he, hnew, hlinks, _, _, hmore⟩

/-! ## A link that led nowhere -/

/-- A directory with a link to a file that is not there. -/
def dangling : Host where
  files := ⟨[(["keys"], .directory), (["keys", "b.yaml"], .link "a.yaml")], by decide⟩
  workingDirectory := []
  home := "/home"

/-- The directory with the file that the link leads to, which is empty. -/
def linked : Host :=
  dangling.withFile ["keys", "a.yaml"] []

/-- Nothing is there to be loaded, and nothing fails; with the file, two candidates fail. -/
theorem load_dangling : Scan.normaliseExtension "yaml" = .ok "yaml" ∧
    Scan.Fresh dangling "yaml" ["keys"] (.ofString "keys") "a.yaml" ∧
    (∀ c ∈ (Scan.directory dangling (.ofString "keys") "yaml").candidates,
      MetadataFile.load .builtin linked c.path = MetadataFile.load .builtin dangling c.path) ∧
    let before := load dangling .sequential [] "log" (MetadataFile.load .builtin dangling) "keys" "yaml"
    let now := load linked .sequential [] "log" (MetadataFile.load .builtin linked) "keys" "yaml"
    before.result = .ok [] ∧ before.errors = [] ∧ now.result = .ok [] ∧ now.errors.length = 2 := by
  have he : Scan.normaliseExtension "yaml" = .ok "yaml" := toOption_eq_some.1 (by decide +kernel)
  have hnew : Scan.Fresh dangling "yaml" ["keys"] (.ofString "keys") "a.yaml" := by
    constructor
    case directory => rfl
    case absent => decide
    case isName => decide
    case visible => decide +kernel
    case hasExtension => decide +kernel
  have hs (host : Host) := Scan.scan_of_normaliseExtension he host (.ofString "keys")
  have hbefore : (Scan.directory dangling (.ofString "keys") "yaml").candidates = [] := by
    have hnames : Scan.sortedNames dangling ["keys"] = ["b.yaml"] := by
      rw [Scan.sortedNames, show dangling.files.names ["keys"] = ["b.yaml"] by decide +kernel]
      exact List.mergeSort_of_pairwise (by decide)
    rw [Scan.candidates_directory hnew.directory, hnames]
    decide +kernel
  have hnow : (Scan.directory linked (.ofString "keys") "yaml").candidates =
      ["a.yaml", "b.yaml"].map (Scan.candidate (.ofString "keys") "yaml") := by
    have hnames : Scan.sortedNames linked ["keys"] = ["a.yaml", "b.yaml"] := by
      rw [Scan.sortedNames, show linked.files.names ["keys"] = ["a.yaml", "b.yaml"] by decide +kernel]
      exact List.mergeSort_of_pairwise (by decide)
    have hd : Scan.lookUp linked (.ofString "keys") = .directory ["keys"] := Scan.lookUp_withFile hnew
    rw [Scan.candidates_directory hd, hnames]
    decide +kernel
  have hp := allLoggable_load linked (Scan.directory linked (.ofString "keys") "yaml").candidates
  have hnone : loaded (MetadataFile.load .builtin linked)
      (Scan.directory linked (.ofString "keys") "yaml").candidates = [] := by
    rw [hnow]
    decide +kernel
  refine ⟨he, hnew, by rw [hbefore]; simp, ?_, ?_, ?_, ?_⟩
  · rw [load_sequential_eq (hs _) (allLoggable_load _ _), hbefore]
    rfl
  · rw [errors_load_sequential (hs _) (allLoggable_load _ _), hbefore]
    rfl
  · rw [load_sequential_eq (hs _) hp, hnone]
  · rw [errors_load_sequential (hs _) hp]
    have hlength : ([] : List Credential).length + (refused "log" (MetadataFile.load .builtin linked)
        (Scan.directory linked (.ofString "keys") "yaml").candidates).length = 2 := by
      rw [← hnone, length_loaded_add hp, hnow]
      rfl
    simpa using hlength

end Keyring.Load
