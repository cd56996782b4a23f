import Keyring.Proofs.Contents
import Keyring.Proofs.LongPath
import Keyring.Proofs.Path
/-!
# All that a scan finds

A scan finds every regular file of the directory whose name has the extension, and nothing else: the
visible ones as candidates and the hidden ones as records of the log, each once and in the order of
their names (`scan_lists`). A link counts as the file that the system follows it to, if it does: with a
path that is too long it does not (`scan_misses_link`).
-/

namespace Keyring.Scan

open Log

variable {h : Host} {extension e : String} {l : Location} {p : Path} {name : String}

/-! ## Entries -/

/-- The entry `name` of the directory `p`, which is at `l`, is a regular file, or a link that the system
follows to one. -/
inductive IsRegular (h : Host) (l : Location) (p : Path) (name : String) : Prop
  | file {bytes} : h.files.at? (l ++ [name]) = some (.file bytes) → IsRegular h l p name
  | link {target m bytes} : h.files.at? (l ++ [name]) = some (.link target) →
    h.locate (p.child name) = .found m (.file bytes) → IsRegular h l p name

/-- The entry is a regular file whose name ends in a dot and the extension, in letters of either
case. -/
structure Matches (h : Host) (e : String) (l : Location) (p : Path) (name : String) : Prop where
  isRegular : IsRegular h l p name
  suffix : '.' :: e.toList <:+ (Text.lower name).toList

theorem isFile_iff : isFile h (l ++ [name]) (p.child name) = true ↔ IsRegular h l p name := by
  unfold isFile
  constructor
  · intro hfile
    split at hfile
    · next bytes hbytes => exact .file hbytes
    · next target htarget =>
      split at hfile
      · next m bytes hm => exact .link htarget hm
      · cases hfile
    · cases hfile
  · rintro (hbytes | ⟨htarget, hm⟩)
    · rw [hbytes]
    · rw [htarget, hm]

theorem matches_iff : (hasExtension e name && isFile h (l ++ [name]) (p.child name)) = true ↔
    Matches h e l p name := by
  rw [Bool.and_eq_true, isFile_iff, hasExtension, List.isSuffixOf_iff_suffix]
  exact ⟨fun hm => ⟨hm.2, hm.1⟩, fun hm => ⟨hm.suffix, hm.isRegular⟩⟩

theorem IsRegular.exists_entry (hr : IsRegular h l p name) :
    ∃ entry, h.files.at? (l ++ [name]) = some entry := by
  cases hr with
  | file hbytes => exact ⟨_, hbytes⟩
  | link htarget _ => exact ⟨_, htarget⟩

theorem IsRegular.isName (hr : IsRegular h l p name) (hfiles : h.files.WellFormed) : IsName name := by
  obtain ⟨entry, hentry⟩ := hr.exists_entry
  exact (hfiles.isFileName hentry).isName

/-! ## Hidden files -/

/-- The record of a hidden file. -/
def skipped (p : Path) : Record :=
  ⟨logger, .debug, "Skipping hidden metadata file " ++ toString p⟩

/-- Whether the entry `name` of the directory `p`, which is at `l`, is logged as hidden. -/
def hides (h : Host) (extension : String) (l : Location) (p : Path) (name : String) : Bool :=
  hasExtension extension name && isFile h (l ++ [name]) (p.child name) &&
    isDotName (p.child name).name

theorem entry_snd (h : Host) (extension : String) (l : Location) (p : Path) (name : String) :
    (entry h extension l p name).2 =
      if hides h extension l p name then some (skipped (p.child name)) else none := by
  simp only [entry, passesOver_eq, hides, skipped]
  by_cases hfile : (hasExtension extension name && isFile h (l ++ [name]) (p.child name)) = true
  · by_cases hdot : isDotName (p.child name).name = true <;> simp [hfile, hdot]
  · simp [hfile]

/-- The records of a directory are those of its hidden names, in their order. -/
theorem log_directory (hd : lookUp h p = .directory l) :
    (directory h p extension).log =
      ((sortedNames h l).filter (hides h extension l p)).map fun name => skipped (p.child name) := by
  have hsnd : (fun name => (entry h extension l p name).2) = fun name =>
      if hides h extension l p name then some (skipped (p.child name)) else none :=
    funext (entry_snd h extension l p)
  simp only [directory, hd, List.filterMap_map, Function.comp_def, hsnd]
  rw [← List.filterMap_eq_map, List.filterMap_filter]
  rfl

/-! ## Directories -/

theorem lookUp_of_locate (hnul : hasNul (toString p) = false) (hp : h.locate p = .found l .directory) :
    lookUp h p = .directory l := by
  rw [lookUp, if_neg (by simp [hnul]), hp]

theorem locate_of_lookUp (hd : lookUp h p = .directory l) :
    hasNul (toString p) = false ∧ h.locate p = .found l .directory := by
  unfold lookUp at hd
  split at hd
  · cases hd
  · next hnul =>
    split at hd
    · next m hm =>
      cases hd
      exact ⟨by simpa using hnul, hm⟩
    · cases hd
    · cases hd

/-- Where there is no directory nothing is found, and nothing is said to be skipped. -/
theorem directory_of_ne (hp : ∀ l, lookUp h p ≠ .directory l) :
    (directory h p extension).candidates = [] ∧
      ∀ r ∈ (directory h p extension).log, ∀ q, r ≠ skipped q := by
  cases ht : lookUp h p with
  | directory l => exact absurd ht (hp l)
  | other =>
    simp only [directory, ht, List.mem_singleton, forall_eq, true_and]
    intro q heq
    have hmessage := congrArg (fun r : Record => r.message.toList.head?) heq
    simp [skipped] at hmessage
  | refused r =>
    simp only [directory, ht, List.mem_singleton, forall_eq, true_and]
    intro q heq
    cases congrArg Record.level heq

/-! ## What is listed -/

theorem isDotName_iff : isDotName name = true ↔ name.toList.head? = some '.' := by
  rw [isDotName, decide_eq_true_iff]

/-- A file that matches is among the names of the directory, and its path ends in its name. -/
theorem listed_iff (hfiles : h.files.WellFormed) (dot : Bool) :
    name ∈ sortedNames h l ∧ Matches h e l p name ∧ isDotName (p.child name).name = dot ↔
      Matches h e l p name ∧ isDotName name = dot := by
  have hmem (hm : Matches h e l p name) : name ∈ sortedNames h l :=
    (perm_sortedNames h l).mem_iff.2
      (FileTree.mem_names.2 (Option.isSome_iff_exists.2 hm.isRegular.exists_entry))
  have hname (hm : Matches h e l p name) : (p.child name).name = name :=
    p.name_child (hm.isRegular.isName hfiles)
  constructor
  · rintro ⟨-, hm, hdot⟩
    exact ⟨hm, hname hm ▸ hdot⟩
  · rintro ⟨hm, hdot⟩
    exact ⟨hmem hm, hm, (hname hm).symm ▸ hdot⟩

theorem mem_filter_accepts (hfiles : h.files.WellFormed) :
    name ∈ (sortedNames h l).filter (accepts h e l p) ↔
      Matches h e l p name ∧ name.toList.head? ≠ some '.' := by
  rw [List.mem_filter, accepts, Bool.and_eq_true, matches_iff, Bool.not_eq_true', listed_iff hfiles,
    ne_eq, ← isDotName_iff, Bool.not_eq_true]

theorem mem_filter_hides (hfiles : h.files.WellFormed) :
    name ∈ (sortedNames h l).filter (hides h e l p) ↔
      Matches h e l p name ∧ name.toList.head? = some '.' := by
  rw [List.mem_filter, hides, Bool.and_eq_true, matches_iff, listed_iff hfiles, ← isDotName_iff]

/-- A scan lists a directory in full. The candidates are the visible regular files with the extension,
each once and in the order of their names; the log has the hidden ones, in the same way. Where there is
no directory, or the system does not come to one, there are none. -/
theorem scan_lists (h : Host) (p : Path) (extension e : String) (hfiles : h.files.WellFormed)
    (he : normaliseExtension extension = .ok e) :
    ∃ scanned, scan h p extension = .ok scanned ∧
      (∀ l, hasNul (toString p) = false → h.locate p = .found l .directory →
        ∃ visible hidden : List String, visible.Pairwise (· < ·) ∧ hidden.Pairwise (· < ·) ∧
          (∀ name, name ∈ visible ↔ Matches h e l p name ∧ name.toList.head? ≠ some '.') ∧
          (∀ name, name ∈ hidden ↔ Matches h e l p name ∧ name.toList.head? = some '.') ∧
          scanned.candidates = visible.map (fun name => ⟨p.child name, e⟩) ∧
          (∀ name ∈ visible, (p.child name).root = p.root ∧ (p.child name).parts = p.parts ++ [name]) ∧
          scanned.log = hidden.map fun name => skipped (p.child name)) ∧
      ((∀ l, hasNul (toString p) = false → h.locate p ≠ .found l .directory) →
        scanned.candidates = [] ∧ ∀ r ∈ scanned.log, ∀ q, r ≠ skipped q) := by
  refine ⟨directory h p e, scan_of_normaliseExtension he h p, ?_, ?_⟩
  · intro l hnul hp
    have hd := lookUp_of_locate hnul hp
    refine ⟨(sortedNames h l).filter (accepts h e l p), (sortedNames h l).filter (hides h e l p),
      (pairwise_sortedNames h l).filter _, (pairwise_sortedNames h l).filter _,
      fun name => mem_filter_accepts hfiles, fun name => mem_filter_hides hfiles,
      candidates_directory hd, ?_, log_directory hd⟩
    intro name hname
    have hisName := ((mem_filter_accepts hfiles).1 hname).1.isRegular.isName hfiles
    exact ⟨p.root_child hisName, p.parts_child hisName⟩
  · intro hp
    refine directory_of_ne fun l hd => ?_
    obtain ⟨hnul, hl⟩ := locate_of_lookUp hd
    exact hp l hnul hl

/-- A directory with a file, a hidden file, a link to the file, a link to itself, a link to nothing and
a directory. -/
def mixed : Host where
  files := ⟨[(["keys"], .directory), (["keys", "b.YAML"], .file []), (["keys", ".a.yaml"], .file []),
    (["keys", "current.yaml"], .link "b.YAML"), (["keys", "d.yaml"], .link "d.yaml"),
    (["keys", "e.yaml"], .link "gone"), (["keys", "f.yaml"], .directory)], by decide⟩
  workingDirectory := []
  home := "/home"

theorem wellFormed_mixed : mixed.files.WellFormed :=
  FileTree.wellFormed_of_entries (by decide)

theorem scan_lists_mixed : mixed.files.WellFormed ∧ normaliseExtension " .Yaml" = .ok "yaml" ∧
    ∃ scanned, scan mixed (.ofString "keys") " .Yaml" = .ok scanned ∧
      ∃ visible hidden : List String,
        "current.yaml" ∈ visible ∧ "d.yaml" ∉ visible ∧ ".a.yaml" ∈ hidden ∧
        scanned.candidates =
          visible.map (fun name => ⟨Path.child (.ofString "keys") name, "yaml"⟩) ∧
        scanned.log = hidden.map fun name => skipped (Path.child (.ofString "keys") name) := by
  have he : normaliseExtension " .Yaml" = .ok "yaml" := Outcome.toOption_eq_some.1 (by decide +kernel)
  obtain ⟨scanned, hs, hlist, -⟩ :=
    scan_lists mixed (.ofString "keys") " .Yaml" "yaml" wellFormed_mixed he
  obtain ⟨visible, hidden, -, -, hvisible, hhidden, hfound, -, hlog⟩ := hlist ["keys"] rfl rfl
  have hlink : mixed.locate (Path.child (.ofString "keys") "current.yaml") =
      .found ["keys", "b.YAML"] (.file []) := rfl
  refine ⟨wellFormed_mixed, he, scanned, hs, visible, hidden, ?_, ?_, ?_, hfound, hlog⟩
  · exact (hvisible _).2 ⟨⟨.link rfl hlink, by decide +kernel⟩, by decide⟩
  · intro hmem
    rcases ((hvisible _).1 hmem).1.isRegular with hfile | ⟨-, hm⟩
    · cases hfile
    · cases hm
  · exact (hhidden _).2 ⟨⟨.file rfl, by decide +kernel⟩, rfl⟩

/-- A link to a file is not found if the path by which it would be followed is too long, although it is
visible and has the extension. -/
theorem scan_misses_link :
    mixed.files.WellFormed ∧ normaliseExtension "yaml" = .ok "yaml" ∧
    mixed.locate longWay = .found ["keys"] .directory ∧
    mixed.files.at? ["keys", "current.yaml"] = some (.link "b.YAML") ∧
    mixed.files.at? ["keys", "b.YAML"] = some (.file []) ∧
    mixed.files.walk FileTree.mostLinks ["keys"] ["current.yaml"] =
      .found ["keys", "b.YAML"] (.file []) ∧
    hasExtension "yaml" "current.yaml" = true ∧ isDotName "current.yaml" = false ∧
    ∃ scanned, scan mixed longWay "yaml" = .ok scanned ∧
      ∀ c ∈ scanned.candidates, c.path ≠ longWay.child "current.yaml" := by
  have he : normaliseExtension "yaml" = .ok "yaml" := Outcome.toOption_eq_some.1 (by decide +kernel)
  have hd := lookUp_of_locate hasNul_longWay (locate_longWay (h := mixed) rfl rfl)
  refine ⟨wellFormed_mixed, he, locate_longWay rfl rfl, rfl, rfl, rfl, by decide +kernel, by decide,
    directory mixed longWay "yaml", scan_of_normaliseExtension he mixed longWay, ?_⟩
  rw [candidates_directory hd]
  intro c hc hpath
  obtain ⟨name, hname, rfl⟩ := List.mem_map.1 hc
  obtain ⟨hmatches, -⟩ := (mem_filter_accepts wellFormed_mixed).1 hname
  rcases hmatches.isRegular with hfile | ⟨-, hm⟩
  · rw [(Path.child_inj (hmatches.isRegular.isName wellFormed_mixed) (by decide)).1 hpath] at hfile
    cases hfile
  · rw [show longWay.child name = longWay.child "current.yaml" from hpath,
      locate_longWay_child (by decide) (by decide)] at hm
    cases hm

end Keyring.Scan
