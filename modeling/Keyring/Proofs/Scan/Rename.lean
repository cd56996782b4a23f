import Keyring.Proofs.FileTree.Move
import Keyring.Proofs.Scan.Listing
/-!
# Scans before and after a file is renamed

If a candidate of a directory without links gets another name that is free and is that of a candidate,
a scan finds the same names as before, but for this one (`perm_accepted_moved`).
-/

namespace Keyring.Scan

variable {h h' : Host} {p : Path}

/-- The candidate called `old` in the directory `p`, which is at `l`, can get the name `new`, which is
free and is that of a candidate, too. -/
structure Renames (h : Host) (e : String) (l : Location) (p : Path) (old new : String) : Prop where
  directory : lookUp h p = .directory l
  file : Matches h e l p old
  visible : old.toList.head? ≠ some '.'
  free : h.files.at? (l ++ [new]) = none
  isFileName : FileTree.IsFileName new
  suffix : '.' :: e.toList <:+ (Text.lower new).toList
  visible_new : new.toList.head? ≠ some '.'

/-- No entry of the directory at `l` is a link. -/
def LinkFree (h : Host) (l : Location) : Prop :=
  ∀ name text, h.files.at? (l ++ [name]) ≠ some (.link text)

/-- The name of an entry after the one called `old` was renamed. -/
def rename (old new name : String) : String :=
  if name = old then new else name

variable {e old new name : String} {l : Location} {bytes : List UInt8}

theorem matches_of_linkFree (hlinks : LinkFree h l) : Matches h e l p name ↔
    (∃ bytes, h.files.at? (l ++ [name]) = some (.file bytes)) ∧
      '.' :: e.toList <:+ (Text.lower name).toList := by
  constructor
  · rintro ⟨hfile | ⟨hlink, -⟩, hsuffix⟩
    · exact ⟨⟨_, hfile⟩, hsuffix⟩
    · exact absurd hlink (hlinks _ _)
  · rintro ⟨⟨bytes, hfile⟩, hsuffix⟩
    exact ⟨.file hfile, hsuffix⟩

/-- The names that a scan finds in a directory without links. -/
theorem mem_accepted (hfiles : h.files.WellFormed) (hlinks : LinkFree h l) :
    name ∈ (sortedNames h l).filter (accepts h e l p) ↔
      ((∃ bytes, h.files.at? (l ++ [name]) = some (.file bytes)) ∧
        '.' :: e.toList <:+ (Text.lower name).toList) ∧ name.toList.head? ≠ some '.' := by
  rw [mem_filter_accepts hfiles, matches_of_linkFree hlinks]

theorem nodup_accepted (h : Host) (e : String) (l : Location) (p : Path) :
    ((sortedNames h l).filter (accepts h e l p)).Nodup :=
  ((pairwise_sortedNames h l).imp String.ne_of_lt).filter _

theorem Renames.ne (hren : Renames h e l p old new)
    (hfile : h.files.at? (l ++ [name]) = some (.file bytes)) : name ≠ new := by
  rintro rfl
  rw [hren.free] at hfile
  cases hfile

/-- The names of files stay different. -/
theorem Renames.rename_inj (hren : Renames h e l p old new) {other : String} {bytes' : List UInt8}
    (hfile : h.files.at? (l ++ [name]) = some (.file bytes))
    (hother : h.files.at? (l ++ [other]) = some (.file bytes'))
    (heq : rename old new name = rename old new other) : name = other := by
  unfold rename at heq
  split at heq <;> split at heq
  · next hname hother => rw [hname, hother]
  · exact absurd heq.symm (hren.ne hother)
  · exact absurd heq (hren.ne hfile)
  · exact heq

section Moved

variable (hm : h.Moved h' (l ++ [old]) (l ++ [new]) bytes)
include hm

theorem LinkFree.moved (hlinks : LinkFree h l) : LinkFree h' l := by
  intro name text htext
  by_cases hold : l ++ [name] = l ++ [old]
  · rw [hold, hm.files.gone] at htext
    cases htext
  · by_cases hnew : l ++ [name] = l ++ [new]
    · rw [hnew, hm.files.there] at htext
      cases htext
    · rw [hm.files.others _ hold hnew] at htext
      exact hlinks name text htext

theorem lookUp_moved (hd : lookUp h p = .directory l) : lookUp h' p = .directory l := by
  obtain ⟨hnul, hp⟩ := locate_of_lookUp hd
  rcases hm.locate p with hsame | ⟨hbefore, -⟩
  · exact lookUp_of_locate hnul (hsame.trans hp)
  · exact absurd (hbefore _ _ hp) (by simp)

/-- Under its name after the renaming, an entry is the same file as before. -/
theorem at?_rename (hne : name ≠ new) :
    h'.files.at? (l ++ [rename old new name]) = h.files.at? (l ++ [name]) := by
  unfold rename
  split
  · next hold => rw [hold, hm.files.there, hm.files.file]
  · next hold => exact hm.files.others _ (by simpa using hold) (by simpa using hne)

/-- A renaming changes one of the names that are found. -/
theorem perm_accepted_moved (hfiles : h.files.WellFormed) (hfiles' : h'.files.WellFormed)
    (hlinks : LinkFree h l) (hren : Renames h e l p old new) :
    ((sortedNames h' l).filter (accepts h' e l p)).Perm
      (((sortedNames h l).filter (accepts h e l p)).map (rename old new)) := by
  have hnodup : (((sortedNames h l).filter (accepts h e l p)).map (rename old new)).Nodup := by
    refine (nodup_accepted h e l p).map_on ?_
    intro name hname other hother heq
    obtain ⟨⟨⟨_, hname⟩, -⟩, -⟩ := (mem_accepted hfiles hlinks).1 hname
    obtain ⟨⟨⟨_, hother⟩, -⟩, -⟩ := (mem_accepted hfiles hlinks).1 hother
    exact hren.rename_inj hname hother heq
  refine (List.perm_ext_iff_of_nodup (nodup_accepted h' e l p) hnodup).2 fun name => ?_
  rw [mem_accepted hfiles' (hlinks.moved hm), List.mem_map]
  constructor
  · -- Found afterwards is the new name, or one that was found before.
    rintro ⟨⟨⟨b, hfile⟩, hsuffix⟩, hvisible⟩
    by_cases hnew : name = new
    · refine ⟨old, (mem_accepted hfiles hlinks).2
        ⟨⟨⟨_, hm.files.file⟩, hren.file.suffix⟩, hren.visible⟩, ?_⟩
      rw [rename, if_pos rfl, hnew]
    · have hold : name ≠ old := by
        rintro rfl
        rw [hm.files.gone] at hfile
        cases hfile
      rw [hm.files.others _ (by simpa using hold) (by simpa using hnew)] at hfile
      exact ⟨name, (mem_accepted hfiles hlinks).2 ⟨⟨⟨b, hfile⟩, hsuffix⟩, hvisible⟩, if_neg hold⟩
  · -- Whatever was found before is found under the name it has then.
    rintro ⟨other, hother, rfl⟩
    obtain ⟨⟨⟨b, hfile⟩, hsuffix⟩, hvisible⟩ := (mem_accepted hfiles hlinks).1 hother
    rw [at?_rename hm (hren.ne hfile)]
    unfold rename
    split
    · exact ⟨⟨⟨b, hfile⟩, hren.suffix⟩, hren.visible_new⟩
    · exact ⟨⟨⟨b, hfile⟩, hsuffix⟩, hvisible⟩

end Moved

end Keyring.Scan
