import Keyring.Host
import Mathlib.Data.List.Nodup
/-!
# New files

A file system holds well-formed trees (`WellFormed`): every entry has a name that it allows and lies in
a directory. The names in a directory are all different (`nodup_names`). A file that is put where nothing
was adds one name to its directory (`names_insert`), and a path leads where it led before, or it led
nowhere and leads to the new file now, or nowhere still (`locate_withFile`).
-/

namespace Keyring

namespace FileTree

variable {t : FileTree} {l m : Location} {name : String} {e : Entry}

/-! ## Listings -/

/-- The name of a location in a directory. -/
def nameIn (dir l : Location) : Option String :=
  match l.getLast? with
  | some name => if l.dropLast = dir then some name else none
  | none => none

theorem nameIn_eq_some {dir : Location} : nameIn dir l = some name ↔ l = dir ++ [name] := by
  unfold nameIn
  constructor
  · intro h
    split at h
    · next last hl =>
      obtain ⟨init, rfl⟩ := List.getLast?_eq_some_iff.1 hl
      rw [List.dropLast_concat] at h
      split at h
      · next hd => rw [hd, Option.some.inj h]
      · cases h
    · cases h
  · rintro rfl
    simp

theorem names_eq (t : FileTree) (dir : Location) :
    t.names dir = (t.entries.map Prod.fst).filterMap (nameIn dir) := by
  rw [List.filterMap_map]
  rfl

theorem nodup_names (t : FileTree) (dir : Location) : (t.names dir).Nodup := by
  rw [names_eq]
  refine t.nodup.filterMap ?_
  intro l l' name hl hl'
  rw [nameIn_eq_some.1 hl, nameIn_eq_some.1 hl']

theorem not_mem_names (hfresh : t.at? (l ++ [name]) = none) : name ∉ t.names l := by
  rw [names_eq, List.mem_filterMap]
  rintro ⟨m, hm, hname⟩
  obtain rfl := nameIn_eq_some.1 hname
  obtain ⟨⟨m, e⟩, he, rfl⟩ := List.mem_map.1 hm
  rw [at?, if_neg (by simp), List.lookup_eq_none_iff] at hfresh
  simpa using hfresh _ he

/-- A fresh name comes first in the listing. -/
theorem names_insert (hfresh : t.at? (l ++ [name]) = none) :
    (t.insert (l ++ [name]) e).names l = name :: t.names l := by
  have herase : (t.erase (l ++ [name])).entries = t.entries := by
    refine List.filter_eq_self.2 ?_
    intro x hx
    rw [decide_eq_true_eq]
    rintro hl
    refine not_mem_names hfresh ?_
    rw [names_eq, List.mem_filterMap]
    exact ⟨x.1, List.mem_map.2 ⟨x, hx, rfl⟩, nameIn_eq_some.2 hl⟩
  have hentries : (t.insert (l ++ [name]) e).entries = (l ++ [name], e) :: t.entries :=
    congrArg (_ :: ·) herase
  rw [names_eq, names_eq, hentries, List.map_cons,
    List.filterMap_cons_some (nameIn_eq_some.2 rfl)]

/-! ## Trees that a file system can hold -/

/-- A name that a file system gives an entry. -/
structure IsFileName (name : String) : Prop where
  isName : IsName name
  ne_dots : name ≠ ".."
  hasNul : hasNul name = false
  size_le : name.utf8ByteSize ≤ longestName

instance (name : String) : Decidable (IsFileName name) :=
  decidable_of_iff
    (IsName name ∧ name ≠ ".." ∧ Keyring.hasNul name = false ∧ name.utf8ByteSize ≤ longestName)
    ⟨fun ⟨hname, hdots, hnul, hsize⟩ => ⟨hname, hdots, hnul, hsize⟩,
      fun h => ⟨h.isName, h.ne_dots, h.hasNul, h.size_le⟩⟩

/-- Every entry has a file name and lies in a directory. -/
structure WellFormed (t : FileTree) : Prop where
  isFileName {dir : Location} {name : String} {e : Entry} :
    t.at? (dir ++ [name]) = some e → IsFileName name
  parent {dir : Location} {name : String} {e : Entry} :
    t.at? (dir ++ [name]) = some e → t.at? dir = some .directory

theorem wellFormed_of_entries
    (h : ∀ x ∈ t.entries, ∀ name ∈ x.1.getLast?,
      IsFileName name ∧ t.at? x.1.dropLast = some .directory) : t.WellFormed := by
  have hall {dir : Location} {name : String} {e : Entry} (he : t.at? (dir ++ [name]) = some e) :
      IsFileName name ∧ t.at? dir = some .directory := by
    rw [at?, if_neg (by simp)] at he
    simpa using h _ (Entries.mem_of_lookup he) name (by simp)
  exact ⟨fun he => (hall he).1, fun he => (hall he).2⟩

theorem at?_ne_link (h : ∀ x ∈ t.entries, ∀ text, x.2 ≠ .link text) (l : Location) (text : String) :
    t.at? l ≠ some (.link text) := by
  intro hlink
  unfold at? at hlink
  split at hlink
  · cases hlink
  · exact h _ (Entries.mem_of_lookup hlink) text rfl

/-! ## One step of a walk -/

/-- What one name does to a walk. -/
inductive Turn where
  /-- The walk goes on from there. -/
  | goes (l : Location)
  | link (text : String)
  /-- The directory has no entry of this name. -/
  | missing
  | refused (r : Refusal)

/-- What the name does to a walk that has come to `here`. -/
def turn (t : FileTree) (here : Location) (name : String) : Turn :=
  if t.at? here ≠ some .directory then .refused .notDirectory
  else if name = "." then .goes here
  else if name = ".." then .goes here.dropLast
  else if longestName < name.utf8ByteSize then .refused .nameTooLong
  else
    match t.at? (here ++ [name]) with
    | none => .missing
    | some (.link text) => .link text
    | some _ => .goes (here ++ [name])

theorem stretch_cons (t : FileTree) (here : Location) (name : String) (rest : List String) :
    t.stretch here (name :: rest) =
      match t.turn here name with
      | .goes l => t.stretch l rest
      | .link text => .link here text rest
      | .missing => .ended (if rest = [] then .missing here name else .refused .noEntry)
      | .refused r => .ended (.refused r) := by
  rw [stretch, turn]
  split
  · rfl
  · split
    · rfl
    · split
      · rfl
      · split
        · rfl
        · cases t.at? (here ++ [name]) with
          | none => rfl
          | some e => cases e <;> rfl

/-- How a walk can end that has a step to make. -/
theorem stretch_cons_eq_ended {here : Location} {rest : List String} {w : Walk} :
    t.stretch here (name :: rest) = .ended w ↔
      (∃ l, t.turn here name = .goes l ∧ t.stretch l rest = .ended w) ∨
      (t.turn here name = .missing ∧
        (if rest = [] then .missing here name else .refused .noEntry) = w) ∨
      ∃ r, t.turn here name = .refused r ∧ .refused r = w := by
  rw [stretch_cons]
  cases t.turn here name <;> simp

/-- How a walk comes to a link: at its next step, or later. -/
theorem stretch_cons_eq_link {here dir : Location} {rest rest' : List String} {text : String} :
    t.stretch here (name :: rest) = .link dir text rest' ↔
      (∃ l, t.turn here name = .goes l ∧ t.stretch l rest = .link dir text rest') ∨
      here = dir ∧ t.turn here name = .link text ∧ rest = rest' := by
  rw [stretch_cons]
  cases t.turn here name <;> simp

theorem at?_of_turn_eq_missing {here : Location} (hturn : t.turn here name = .missing) :
    t.at? here = some .directory ∧ t.at? (here ++ [name]) = none := by
  unfold turn at hturn
  split at hturn
  · cases hturn
  · next hhere =>
    split at hturn
    · cases hturn
    · split at hturn
      · cases hturn
      · split at hturn
        · cases hturn
        · split at hturn
          · next hnone => exact ⟨Decidable.not_not.1 hhere, hnone⟩
          · cases hturn
          · cases hturn

/-- A step depends on two entries. -/
theorem turn_congr {t' : FileTree} {here : Location} (hhere : t'.at? here = t.at? here)
    (hnext : t'.at? (here ++ [name]) = t.at? (here ++ [name])) :
    t'.turn here name = t.turn here name := by
  simp only [turn, hhere, hnext]

/-- A file where nothing was can turn a step that found nothing into one that goes on. -/
theorem turn_of_new {t' : FileTree} {here : Location} {bytes : List UInt8}
    (hhere : t'.at? here = t.at? here) (hnone : t.at? (here ++ [name]) = none)
    (hfile : t'.at? (here ++ [name]) = some (.file bytes)) :
    t'.turn here name = t.turn here name ∨
      t.turn here name = .missing ∧ t'.turn here name = .goes (here ++ [name]) := by
  simp only [turn, hhere, hnone, hfile]
  split
  · exact .inl rfl
  · split
    · exact .inl rfl
    · split
      · exact .inl rfl
      · split
        · exact .inl rfl
        · exact .inr ⟨rfl, rfl⟩

theorem stretch_file {bytes : List UInt8} (hfile : t.at? l = some (.file bytes))
    (names : List String) : t.stretch l names =
      .ended (if names = [] then .found l (.file bytes) else .refused .notDirectory) := by
  cases names with
  | nil => simp [stretch, hfile]
  | cons name rest => simp [stretch, hfile]

/-! ## Walks -/

theorem walk_of_ended {w : Walk} {here : Location} {names : List String}
    (hs : t.stretch here names = .ended w) (purpose : Purpose) (links : Nat) :
    t.walkFor purpose links here names = w := by
  cases links <;> simp only [walkFor, hs]

/-- What a new file at `m` can change of a walk: it led nowhere, and leads to the file now or
nowhere still. -/
def Walk.Turns (m : Location) (e : Entry) (w w' : Walk) : Prop :=
  (∀ l x, w ≠ .found l x) ∧ (w' = .found m e ∨ ∃ r, w' = .refused r)

theorem ne_nil_of_fresh (hfresh : t.at? m = none) : m ≠ [] := by
  rintro rfl
  cases hfresh

theorem ne_nil_of_file {bytes : List UInt8} (hfile : t.at? m = some (.file bytes)) : m ≠ [] := by
  rintro rfl
  cases hfile

theorem turn_insert (bytes : List UInt8) (hfresh : t.at? m = none) (here : Location) (name : String) :
    (t.insert m (.file bytes)).turn here name = t.turn here name ∨
      t.turn here name = .missing ∧ (t.insert m (.file bytes)).turn here name = .goes m := by
  have hself := at?_insert_self (ne_nil_of_fresh hfresh) t (.file bytes)
  by_cases hhere : here = m
  · -- Neither before nor after is there a directory.
    subst hhere
    left
    simp [turn, hfresh, hself]
  · by_cases hnext : here ++ [name] = m
    · subst hnext
      exact turn_of_new (at?_insert_of_ne hhere t _) hfresh hself
    · exact .inl (turn_congr (at?_insert_of_ne hhere t _) (at?_insert_of_ne hnext t _))

/-- Up to a link, only a step to the place of the new file is another one than before. -/
theorem stretch_insert (bytes : List UInt8) (hfresh : t.at? m = none) (names : List String) :
    ∀ here, (t.insert m (.file bytes)).stretch here names = t.stretch here names ∨
      ∃ w w', t.stretch here names = .ended w ∧
        (t.insert m (.file bytes)).stretch here names = .ended w' ∧ w.Turns m (.file bytes) w' := by
  have hself := at?_insert_self (ne_nil_of_fresh hfresh) t (.file bytes)
  induction names with
  | nil =>
    intro here
    by_cases hh : here = m
    · subst hh
      refine .inr ⟨.refused .noEntry, .found here (.file bytes), ?_, ?_, ?_, .inl rfl⟩
      · simp [stretch, hfresh]
      · simp [stretch, hself]
      · simp
    · exact .inl (by simp only [stretch, at?_insert_of_ne hh])
  | cons name rest ih =>
    intro here
    rw [stretch_cons, stretch_cons]
    rcases turn_insert bytes hfresh here name with hsame | ⟨hmissing, hgoes⟩
    · rw [hsame]
      cases t.turn here name with
      | goes l => exact ih l
      | link text => exact .inl rfl
      | missing => exact .inl rfl
      | refused r => exact .inl rfl
    · rw [hmissing, hgoes]
      refine .inr ⟨_, _, rfl, stretch_file hself rest, ?_⟩
      split
      · exact ⟨by simp, .inl rfl⟩
      · exact ⟨by simp, .inr ⟨_, rfl⟩⟩

theorem walk_insert (bytes : List UInt8) (hfresh : t.at? m = none) (links : Nat) :
    ∀ here names, (t.insert m (.file bytes)).walk links here names = t.walk links here names ∨
      (t.walk links here names).Turns m (.file bytes)
        ((t.insert m (.file bytes)).walk links here names) := by
  induction links with
  | zero =>
    intro here names
    rcases stretch_insert bytes hfresh names here with hs | ⟨w, w', hw, hw', hturn⟩
    · exact .inl (by simp only [walkFor, hs])
    · exact .inr (by simpa only [walkFor, hw, hw'] using hturn)
  | succ links ih =>
    intro here names
    rcases stretch_insert bytes hfresh names here with hs | ⟨w, w', hw, hw', hturn⟩
    · simp only [walkFor, hs]
      split
      · exact .inl rfl
      · exact ih _ _
    · exact .inr (by simpa only [walkFor, hw, hw'] using hturn)

end FileTree

namespace Host

variable {h : Host} {m : Location}

/-- The host with a file at a location. -/
def withFile (h : Host) (m : Location) (bytes : List UInt8) : Host :=
  { h with files := h.files.insert m (.file bytes) }

theorem locate_withFile (bytes : List UInt8) (hfresh : h.files.at? m = none) (p : Path) :
    (h.withFile m bytes).locate p = h.locate p ∨
      (h.locate p).Turns m (.file bytes) ((h.withFile m bytes).locate p) := by
  unfold locate reach
  split
  · exact .inl rfl
  · exact FileTree.walk_insert bytes hfresh _ _ _

/-- What a path leads to it still leads to. -/
theorem locate_withFile_of_found (bytes : List UInt8) (hfresh : h.files.at? m = none) {p : Path}
    {l : Location} {e : Entry} (hp : h.locate p = .found l e) :
    (h.withFile m bytes).locate p = .found l e := by
  rcases locate_withFile bytes hfresh p with hs | ⟨hn, -⟩
  · rw [hs, hp]
  · exact absurd hp (hn l e)

end Host

end Keyring
