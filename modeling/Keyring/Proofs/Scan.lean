import Keyring.Proofs.FileTree
import Keyring.Proofs.Outcome
import Keyring.Proofs.Text
import Keyring.Scan
/-!
# What a scan finds

The candidates of a directory are those of its names that are accepted, in increasing order
(`candidates_directory`). A new file with an accepted name is one candidate more, at the place of its
name (`candidates_withFile`), unless a link of the directory leads to it.
-/

namespace Keyring.Scan

variable {h : Host} {extension : String} {l : Location} {p : Path}

/-! ## Names in order -/

theorem perm_sortedNames (h : Host) (l : Location) : (sortedNames h l).Perm (h.files.names l) :=
  List.mergeSort_perm _ _

/-- No name comes twice. -/
theorem pairwise_sortedNames (h : Host) (l : Location) : (sortedNames h l).Pairwise (· < ·) :=
  Text.pairwise_mergeSort (h.files.nodup_names l)

/-! ## Candidates -/

/-- The candidate called `name` in the directory `p`. -/
def candidate (p : Path) (extension name : String) : Candidate :=
  ⟨p.child name, extension⟩

/-- Whether the entry `name` of the directory `p`, which is at `l`, is a candidate. -/
def accepts (h : Host) (extension : String) (l : Location) (p : Path) (name : String) : Bool :=
  hasExtension extension name && isFile h (l ++ [name]) (p.child name) &&
    !isDotName (p.child name).name

theorem entry_fst (h : Host) (extension : String) (l : Location) (p : Path) (name : String) :
    (entry h extension l p name).1 =
      if accepts h extension l p name then some (candidate p extension name) else none := by
  simp only [entry, passesOver_eq, accepts, candidate]
  by_cases hfile : (hasExtension extension name && isFile h (l ++ [name]) (p.child name)) = true
  · by_cases hdot : isDotName (p.child name).name = true <;> simp [hfile, hdot]
  · simp [hfile]

/-- The candidates of a directory are its accepted names, in their order. -/
theorem candidates_directory (hd : lookUp h p = .directory l) :
    (directory h p extension).candidates =
      ((sortedNames h l).filter (accepts h extension l p)).map (candidate p extension) := by
  have hfst : (fun name => (entry h extension l p name).1) =
      fun name => if accepts h extension l p name then some (candidate p extension name) else none :=
    funext (entry_fst h extension l p)
  simp only [directory, hd, List.filterMap_map, Function.comp_def, hfst]
  induction sortedNames h l with
  | nil => rfl
  | cons name names ih => by_cases ha : accepts h extension l p name = true <;> simp [ha, ih]

theorem scan_of_normaliseExtension {extension e : String} (he : normaliseExtension extension = .ok e)
    (h : Host) (p : Path) : scan h p extension = .ok (directory h p e) := by
  rw [scan, he]
  rfl

/-- What a scan finds lies in one directory, in the order of the names. -/
theorem candidates_of_scan {directory : Path} {scanned : Result} {extension e : String}
    (he : normaliseExtension extension = .ok e) (hs : scan h directory extension = .ok scanned) :
    ∃ names : List String, names.Pairwise (· < ·) ∧
      scanned.candidates = names.map (candidate directory e) := by
  obtain rfl := Except.ok.inj ((scan_of_normaliseExtension he h directory).symm.trans hs)
  cases hd : lookUp h directory with
  | directory l =>
    exact ⟨_, (pairwise_sortedNames h l).filter _, candidates_directory hd⟩
  | other => exact ⟨[], .nil, by simp [Scan.directory, hd]⟩
  | refused r => exact ⟨[], .nil, by simp [Scan.directory, hd]⟩

/-! ## A new file -/

/-- A file called `name` can be put into the directory `p`, which is at `l`, and has the name of a
candidate. -/
structure Fresh (h : Host) (extension : String) (l : Location) (p : Path) (name : String) : Prop where
  directory : lookUp h p = .directory l
  absent : h.files.at? (l ++ [name]) = none
  isName : IsName name
  visible : isDotName name = false
  hasExtension : hasExtension extension name = true

/-- Once the file called `name` is there, no link of the directory with the name of a candidate leads
to it. -/
def Unlinked (h : Host) (extension : String) (l : Location) (p : Path) (name : String)
    (bytes : List UInt8) : Prop :=
  ∀ other target, h.files.at? (l ++ [other]) = some (.link target) →
    Scan.hasExtension extension other = true → isDotName (p.child other).name = false →
    (h.withFile (l ++ [name]) bytes).locate (p.child other) ≠ .found (l ++ [name]) (.file bytes)

variable {name : String} {bytes : List UInt8}

theorem lookUp_withFile (hnew : Fresh h extension l p name) :
    lookUp (h.withFile (l ++ [name]) bytes) p = .directory l := by
  have hd := hnew.directory
  unfold lookUp at hd ⊢
  split at hd
  · cases hd
  · next hnul =>
    rw [if_neg hnul]
    split at hd
    · next m hm =>
      rw [Host.locate_withFile_of_found bytes hnew.absent hm]
      exact hd
    · cases hd
    · cases hd

/-- The file is found. -/
theorem accepts_new (hnew : Fresh h extension l p name) :
    accepts (h.withFile (l ++ [name]) bytes) extension l p name = true := by
  have hfile : isFile (h.withFile (l ++ [name]) bytes) (l ++ [name]) (p.child name) = true := by
    rw [isFile, Host.withFile, FileTree.at?_insert_self (by simp)]
  rw [accepts, hnew.hasExtension, hfile, p.name_child hnew.isName, hnew.visible]
  rfl

/-- Whatever else has the name of a candidate is a file if it was one before. -/
theorem isFile_other (hnew : Fresh h extension l p name)
    (hlinks : Unlinked h extension l p name bytes) {other : String} (hne : other ≠ name)
    (hext : Scan.hasExtension extension other = true)
    (hdot : isDotName (p.child other).name = false) :
    isFile (h.withFile (l ++ [name]) bytes) (l ++ [other]) (p.child other) =
      isFile h (l ++ [other]) (p.child other) := by
  have hentry : (h.withFile (l ++ [name]) bytes).files.at? (l ++ [other]) =
      h.files.at? (l ++ [other]) :=
    FileTree.at?_insert_of_ne (by simpa using hne) _ _
  simp only [isFile]
  rw [hentry]
  split
  · rfl
  · next target htarget =>
    rcases Host.locate_withFile bytes hnew.absent (p.child other) with hsame | ⟨hbefore, hturn⟩
    · rw [hsame]
    · -- The link led nowhere, and does not lead to the new file.
      have hnone : isFile h (l ++ [other]) (p.child other) = false := by
        simp only [isFile, htarget]
        split
        · next m bytes' hm => exact absurd hm (hbefore _ _)
        · rfl
      rcases hturn with hnow | ⟨r, hnow⟩
      · exact absurd hnow (hlinks other target htarget hext hdot)
      · simpa only [isFile, htarget, hnow] using hnone.symm
  · rfl

/-- Whatever else is in the directory is found if it was found before. -/
theorem accepts_other (hnew : Fresh h extension l p name)
    (hlinks : Unlinked h extension l p name bytes) {other : String} (hne : other ≠ name) :
    accepts (h.withFile (l ++ [name]) bytes) extension l p other = accepts h extension l p other := by
  by_cases hext : Scan.hasExtension extension other = true
  · cases hdot : isDotName (p.child other).name with
    | true => simp [accepts, hdot]
    | false => simp only [accepts, isFile_other hnew hlinks hne hext hdot]
  · simp [accepts, hext]

/-- The names of the directory with the new one at its place. -/
theorem sortedNames_withFile (bytes : List UInt8) (hnew : Fresh h extension l p name) :
    ∃ before after, (before ++ name :: after).Pairwise (· < ·) ∧
      sortedNames (h.withFile (l ++ [name]) bytes) l = before ++ name :: after ∧
      sortedNames h l = before ++ after := by
  have hperm : (sortedNames (h.withFile (l ++ [name]) bytes) l).Perm (name :: h.files.names l) := by
    rw [← FileTree.names_insert (e := .file bytes) hnew.absent]
    exact perm_sortedNames _ _
  obtain ⟨before, after, hsplit⟩ := List.append_of_mem (hperm.mem_iff.2 List.mem_cons_self)
  have hsorted := pairwise_sortedNames (h.withFile (l ++ [name]) bytes) l
  rw [hsplit] at hperm hsorted
  have hrest : (before ++ after).Pairwise (· < ·) :=
    hsorted.sublist ((List.sublist_cons_self name after).append_left before)
  have hnames : (sortedNames h l).Perm (before ++ after) :=
    (perm_sortedNames h l).trans
      ((List.perm_middle.symm.trans hperm).cons_inv).symm
  refine ⟨before, after, hsorted, hsplit, ?_⟩
  exact hnames.eq_of_pairwise (fun a b _ _ hab hba => absurd hba (String.lt_asymm hab))
    (pairwise_sortedNames h l) hrest

/-- A new file is one candidate more, at the place of its name. -/
theorem candidates_withFile (hnew : Fresh h extension l p name)
    (hlinks : Unlinked h extension l p name bytes) :
    ∃ before after : List String, (before ++ name :: after).Pairwise (· < ·) ∧
      (directory h p extension).candidates = (before ++ after).map (candidate p extension) ∧
      (directory (h.withFile (l ++ [name]) bytes) p extension).candidates =
        (before ++ name :: after).map (candidate p extension) := by
  obtain ⟨before, after, hsorted, hnow, hbefore⟩ := sortedNames_withFile bytes hnew
  have hrest : ∀ names : List String, name ∉ names →
      names.filter (accepts (h.withFile (l ++ [name]) bytes) extension l p) =
        names.filter (accepts h extension l p) := by
    intro names hnames
    refine List.filter_congr fun other ho => ?_
    exact accepts_other hnew hlinks fun heq => hnames (heq ▸ ho)
  obtain ⟨-, hafter, hlt⟩ := List.pairwise_append.1 hsorted
  have hnotBefore : name ∉ before := fun hm => String.lt_irrefl _ (hlt _ hm _ List.mem_cons_self)
  have hnotAfter : name ∉ after := fun hm =>
    String.lt_irrefl _ ((List.pairwise_cons.1 hafter).1 _ hm)
  refine ⟨before.filter (accepts h extension l p), after.filter (accepts h extension l p),
    ?_, ?_, ?_⟩
  · exact hsorted.sublist (List.filter_sublist.append (List.filter_sublist.cons_cons name))
  · rw [candidates_directory hnew.directory, hbefore, List.filter_append]
  · rw [candidates_directory (lookUp_withFile hnew), hnow, List.filter_append,
      List.filter_cons_of_pos (accepts_new hnew), hrest before hnotBefore, hrest after hnotAfter]

end Keyring.Scan
