import Keyring.Metadata
import Keyring.Proofs.FileTree
import Keyring.Proofs.Outcome
import Keyring.Proofs.Scan
/-!
# Files with other contents

Two hosts are alike if they have the same directories, links and files and differ only in what some
files hold. Every path leads to the same place on both (`locate_alike`), so a scan finds the same
candidates (`scan_eq`), a file can be read on both or on neither for the same reason (`read_alike`),
and what is written ends up at the same place (`write_alike`).
-/

namespace Keyring

open Outcome

/-- Which bytes a file may hold on one host and which on the other, by its location. -/
abbrev Contents := Location → List UInt8 → List UInt8 → Prop

/-- Two entries are the same, but for what a file holds. -/
inductive Entry.Alike (R : List UInt8 → List UInt8 → Prop) : Entry → Entry → Prop
  | file {bytes bytes'} : R bytes bytes' → Alike R (.file bytes) (.file bytes')
  | directory : Alike R .directory .directory
  | link (target) : Alike R (.link target) (.link target)

namespace FileTree

/-- Two trees are the same, but for what files hold. -/
def Alike (R : Contents) (t t' : FileTree) : Prop :=
  ∀ l, Option.Rel (Entry.Alike (R l)) (t.at? l) (t'.at? l)

/-- Two walks end at the same place for the same reason. -/
inductive Walk.Alike (R : Contents) : Walk → Walk → Prop
  | found {l e e'} : Entry.Alike (R l) e e' → Alike R (.found l e) (.found l e')
  | missing (directory name) : Alike R (.missing directory name) (.missing directory name)
  | refused (r) : Alike R (.refused r) (.refused r)

inductive Stretch.Alike (R : Contents) : Stretch → Stretch → Prop
  | ended {w w'} : Walk.Alike R w w' → Alike R (.ended w) (.ended w')
  | link (directory target rest) : Alike R (.link directory target rest) (.link directory target rest)

variable {R : Contents} {t t' : FileTree}

/-- Trees with alike entries in one order are alike. -/
theorem alike_of_entries (h : List.Forall₂ (fun e e' => e.1 = e'.1 ∧ Entry.Alike (R e.1) e.2 e'.2)
    t.entries t'.entries) : Alike R t t' := by
  intro l
  unfold at?
  split
  · exact .some .directory
  · revert h
    generalize t.entries = es, t'.entries = es'
    intro h
    induction h with
    | nil => exact .none
    | @cons e e' _ _ he _ ih =>
      obtain ⟨l', e⟩ := e
      obtain ⟨l'', e'⟩ := e'
      obtain ⟨rfl, he⟩ := he
      simp only [List.lookup_cons]
      split
      · next hl =>
        obtain rfl := eq_of_beq hl
        exact .some he
      · exact ih

/-- A tree is like itself with other bytes in one file. -/
theorem alike_insert {l : Location} {old bytes : List UInt8} (hold : t.at? l = some (.file old))
    (hl : R l old bytes) (hsame : ∀ m ≠ l, ∀ b, R m b b) : Alike R t (t.insert l (.file bytes)) := by
  intro m
  by_cases hm : m = l
  · subst hm
    rw [hold, at?_insert_self (ne_nil_of_file hold)]
    exact .some (.file hl)
  · rw [at?_insert_of_ne hm]
    cases t.at? m with
    | none => exact .none
    | some e =>
      cases e with
      | file => exact .some (.file (hsame m hm _))
      | directory => exact .some .directory
      | link target => exact .some (.link target)

theorem Alike.directory_iff (h : Alike R t t') (l : Location) :
    t.at? l = some .directory ↔ t'.at? l = some .directory := by
  have hl := h l
  revert hl
  generalize t.at? l = e, t'.at? l = e'
  rintro (_ | _)
  · next h => cases h <;> simp
  · rfl

theorem Alike.isSome_eq (h : Alike R t t') (l : Location) : (t.at? l).isSome = (t'.at? l).isSome := by
  have hl := h l
  revert hl
  generalize t.at? l = e, t'.at? l = e'
  rintro (_ | _) <;> rfl

theorem stretch_alike (h : Alike R t t') (names : List String) :
    ∀ here, Stretch.Alike R (t.stretch here names) (t'.stretch here names) := by
  induction names with
  | nil =>
    intro here
    have hhere := h here
    unfold stretch
    revert hhere
    generalize t.at? here = e, t'.at? here = e'
    rintro (_ | _)
    · next he => exact .ended (.found he)
    · exact .ended (.refused _)
  | cons name rest ih =>
    intro here
    simp only [stretch, ne_eq, h.directory_iff here]
    split
    · exact .ended (.refused _)
    · split
      · exact ih here
      · split
        · exact ih here.dropLast
        · split
          · exact .ended (.refused _)
          · have hname := h (here ++ [name])
            revert hname
            generalize t.at? (here ++ [name]) = e, t'.at? (here ++ [name]) = e'
            rintro (_ | _)
            · next he =>
              cases he with
              | file => exact ih _
              | directory => exact ih _
              | link target => exact .link here target rest
            · refine .ended ?_
              split
              · exact .missing here name
              · exact .refused _

theorem walk_alike (h : Alike R t t') (purpose : Purpose) (links : Nat) : ∀ here names,
    Walk.Alike R (t.walkFor purpose links here names) (t'.walkFor purpose links here names) := by
  induction links with
  | zero =>
    intro here names
    unfold walkFor
    have hs := stretch_alike h names here
    revert hs
    generalize t.stretch here names = s, t'.stretch here names = s'
    rintro (⟨hw⟩ | _)
    · exact hw
    · exact .refused _
  | succ links ih =>
    intro here names
    unfold walkFor
    have hs := stretch_alike h names here
    revert hs
    generalize t.stretch here names = s, t'.stretch here names = s'
    rintro (⟨hw⟩ | ⟨directory, target, rest⟩)
    · exact hw
    · exact ih _ _

/-- A directory lists what is in it. -/
theorem mem_names {dir : Location} {name : String} :
    name ∈ t.names dir ↔ (t.at? (dir ++ [name])).isSome = true := by
  constructor
  · intro hname
    rw [← Option.ne_none_iff_isSome]
    exact fun hnone => not_mem_names hnone hname
  · intro hsome
    obtain ⟨e, he⟩ := Option.isSome_iff_exists.1 hsome
    rw [at?, if_neg (by simp)] at he
    rw [names_eq, List.mem_filterMap]
    exact ⟨dir ++ [name], List.mem_map.2 ⟨_, (Entries.mem_iff_lookup t.nodup).2 he, rfl⟩, nameIn_eq_some.2 rfl⟩

theorem perm_names (h : Alike R t t') (dir : Location) : (t.names dir).Perm (t'.names dir) := by
  refine (List.perm_ext_iff_of_nodup (nodup_names t dir) (nodup_names t' dir)).2 fun name => ?_
  rw [mem_names, mem_names, h.isSome_eq]

end FileTree

namespace Host

/-- Two hosts are the same, but for what files hold. -/
structure Alike (R : Contents) (h h' : Host) : Prop where
  files : FileTree.Alike R h.files h'.files
  workingDirectory : h'.workingDirectory = h.workingDirectory
  home : h'.home = h.home
  homes : h'.homes = h.homes

variable {R : Contents} {h h' : Host}

theorem alike_withFile {l : Location} {old bytes : List UInt8} (hold : h.files.at? l = some (.file old))
    (hl : R l old bytes) (hsame : ∀ m ≠ l, ∀ b, R m b b) : h.Alike R (h.withFile l bytes) :=
  ⟨FileTree.alike_insert hold hl hsame, rfl, rfl, rfl⟩

theorem Alike.mono {R' : Contents} (halike : Alike R h h') (hR : ∀ l b b', R l b b' → R' l b b') :
    Alike R' h h' where
  files := by
    intro l
    have hl := halike.files l
    revert hl
    generalize h.files.at? l = e, h'.files.at? l = e'
    rintro (⟨hbytes | _ | _⟩ | _)
    · exact .some (.file (hR _ _ _ hbytes))
    · exact .some .directory
    · exact .some (.link _)
    · exact .none
  workingDirectory := halike.workingDirectory
  home := halike.home
  homes := halike.homes

theorem reach_alike (halike : Alike R h h') (purpose : FileTree.Purpose) (p : Path) :
    FileTree.Walk.Alike R (h.reach purpose p) (h'.reach purpose p) := by
  unfold reach
  rw [halike.workingDirectory]
  split
  · exact .refused _
  · exact FileTree.walk_alike halike.files _ _ _ _

theorem locate_alike (halike : Alike R h h') (p : Path) :
    FileTree.Walk.Alike R (h.locate p) (h'.locate p) :=
  reach_alike halike .read p

/-- The file that a path leads to is read on both hosts. -/
theorem read_alike (halike : Alike R h h') (p : Path) :
    Outcome.Alike (fun bytes bytes' => ∃ l, h.locate p = .found l (.file bytes) ∧ R l bytes bytes')
      (h.read p) (h'.read p) := by
  unfold read
  split
  · exact .error _
  · have hw := locate_alike halike p
    unfold bytes?
    revert hw
    generalize h.locate p = w, h'.locate p = w'
    rintro (⟨⟨hbytes⟩ | _ | _⟩ | _ | _)
    · exact .ok ⟨_, rfl, hbytes⟩
    all_goals exact .error _

/-- What is written on both hosts is put at the same place. -/
theorem write_alike (halike : Alike R h h') (p : Path) (bytes : List UInt8) :
    Outcome.Alike (fun g g' => ∃ l, g = h.withFile l bytes ∧ g' = h'.withFile l bytes)
      (h.write p bytes) (h'.write p bytes) := by
  unfold write
  split
  · exact .error _
  · have hw := reach_alike halike .write p
    unfold write?
    revert hw
    generalize h.reach .write p = w, h'.reach .write p = w'
    rintro (⟨_ | _ | _⟩ | _ | _)
    · exact .ok ⟨_, rfl, rfl⟩
    · exact .error _
    · exact .error _
    · exact .ok ⟨_, rfl, rfl⟩
    · exact .error _

theorem expandHome_eq (halike : Alike R h h') (p : Path) : h'.expandHome p = h.expandHome p := by
  simp only [expandHome, homeOf, halike.home, halike.homes]

theorem resolve_eq (halike : Alike R h h') (baseDir : Path) (v : Datum) :
    Metadata.resolve h' baseDir v = Metadata.resolve h baseDir v := by
  simp only [Metadata.resolve, expandHome_eq halike]

end Host

namespace Scan

variable {R : Contents} {h h' : Host}

theorem lookUp_eq (halike : h.Alike R h') (p : Path) : lookUp h' p = lookUp h p := by
  unfold lookUp
  have hw := Host.locate_alike halike p
  revert hw
  generalize h.locate p = w, h'.locate p = w'
  rintro (⟨_ | _ | _⟩ | _ | _) <;> rfl

theorem isFile_eq (halike : h.Alike R h') (l : Location) (p : Path) : isFile h' l p = isFile h l p := by
  unfold isFile
  have hl := halike.files l
  have hw := Host.locate_alike halike p
  revert hl hw
  generalize h.files.at? l = e, h'.files.at? l = e', h.locate p = w, h'.locate p = w'
  rintro (⟨_ | _ | _⟩ | _) (⟨_ | _ | _⟩ | _ | _) <;> rfl

theorem sortedNames_eq (halike : h.Alike R h') (l : Location) : sortedNames h' l = sortedNames h l := by
  have hperm : (sortedNames h' l).Perm (sortedNames h l) :=
    (perm_sortedNames h' l).trans ((FileTree.perm_names halike.files l).symm.trans
      (perm_sortedNames h l).symm)
  exact hperm.eq_of_pairwise (fun a b _ _ hab hba => absurd hba (String.lt_asymm hab))
    (pairwise_sortedNames h' l) (pairwise_sortedNames h l)

/-- A scan does not look into files. -/
theorem directory_eq (halike : h.Alike R h') (p : Path) (extension : String) :
    directory h' p extension = directory h p extension := by
  have hentry (l : Location) : entry h' extension l p = entry h extension l p := by
    funext name
    simp only [entry, isFile_eq halike]
  simp only [directory, lookUp_eq halike, hentry, sortedNames_eq halike]

end Scan

theorem scan_eq {R : Contents} {h h' : Host} (halike : h.Alike R h') (directory : Path)
    (extension : String) : scan h' directory extension = scan h directory extension := by
  simp only [scan, Scan.directory_eq halike]

end Keyring
