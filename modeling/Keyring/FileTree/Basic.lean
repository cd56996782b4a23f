import Keyring.Entries
/-!
# File trees

A file tree maps locations to what is there: a regular file with its bytes, a directory, or a
symbolic link with its target. A location is the list of names on the way from the root, which is
always a directory. `insert`, `erase` and `move` change a tree; `names` lists a directory. The view
of a tree is `at?`: the lemmas say what is where after a change.
-/

namespace Keyring

/-- The names on the way from the root. -/
abbrev Location := List String

/-- What is at a location. -/
inductive Entry where
  | file (bytes : List UInt8)
  | directory
  | link (target : String)
  deriving DecidableEq, Repr

/-- The entries below the root; no location has two. -/
structure FileTree where
  entries : List (Location × Entry)
  nodup : (entries.map Prod.fst).Nodup

namespace FileTree

/-- A tree without entries. -/
def empty : FileTree := ⟨[], List.nodup_nil⟩

instance : Inhabited FileTree := ⟨empty⟩

/-- What is at a location. -/
def at? (t : FileTree) (l : Location) : Option Entry :=
  if l = [] then some .directory else t.entries.lookup l

/-- The entries at the locations that `p` accepts. -/
def restrict (t : FileTree) (p : Location → Bool) : FileTree where
  entries := t.entries.filter fun e => p e.1
  nodup := by
    have h : ((t.entries.filter fun e => p e.1).map Prod.fst).Sublist (t.entries.map Prod.fst) :=
      (List.filter_sublist).map _
    exact h.nodup t.nodup

/-- The root is a directory whatever the entries are. -/
@[simp] theorem at?_root (t : FileTree) : t.at? [] = some .directory := rfl

theorem at?_restrict {l : Location} (h : l ≠ []) (t : FileTree) (p : Location → Bool) :
    (t.restrict p).at? l = if p l then t.at? l else none := by
  simp only [at?, if_neg h, restrict]
  split
  · next hp => exact Entries.lookup_filter hp _
  · next hp => exact Entries.lookup_filter_of_not (by simpa using hp) _

/-- Removes what is at a location. -/
def erase (t : FileTree) (l : Location) : FileTree :=
  t.restrict (· ≠ l)

theorem at?_erase_self {l : Location} (h : l ≠ []) (t : FileTree) : (t.erase l).at? l = none := by
  simp [erase, at?_restrict h]

theorem at?_erase_of_ne {l m : Location} (h : m ≠ l) (t : FileTree) :
    (t.erase l).at? m = t.at? m := by
  by_cases hm : m = []
  · subst hm; rfl
  · simp [erase, at?_restrict hm, h]

/-- Puts an entry at a location, in place of what was there. -/
def insert (t : FileTree) (l : Location) (e : Entry) : FileTree where
  entries := (l, e) :: (t.erase l).entries
  nodup := by
    refine List.nodup_cons.2 ⟨?_, (t.erase l).nodup⟩
    intro h
    obtain ⟨x, hx, rfl⟩ := List.mem_map.1 h
    simpa [erase, restrict] using (List.mem_filter.1 hx).2

theorem at?_insert_self {l : Location} (h : l ≠ []) (t : FileTree) (e : Entry) :
    (t.insert l e).at? l = some e := by
  simp [at?, h, insert]

theorem at?_insert_of_ne {l m : Location} (h : m ≠ l) (t : FileTree) (e : Entry) :
    (t.insert l e).at? m = t.at? m := by
  by_cases hm : m = []
  · subst hm; rfl
  · rw [← at?_erase_of_ne h t]
    simp only [at?, if_neg hm, insert]
    exact Entries.lookup_cons_of_ne h e _

/-- Whether `l` is the location `dir` or lies below it. -/
def isWithin (dir l : Location) : Bool :=
  dir.isPrefixOf l

/-- Removes a location and all that lies below it. -/
def prune (t : FileTree) (l : Location) : FileTree :=
  t.restrict fun m => !isWithin l m

theorem at?_prune {l m : Location} (h : m ≠ []) (t : FileTree) :
    (t.prune l).at? m = if isWithin l m then none else t.at? m := by
  rw [prune, at?_restrict h]
  cases isWithin l m <;> rfl

/-- Moves an entry and all that lies below it, in place of what was at the new location. -/
def move (t : FileTree) (source target : Location) : FileTree :=
  if source = target then t
  else
    let moved := t.restrict (isWithin source)
    moved.entries.foldr (fun e rest => rest.insert (target ++ e.1.drop source.length) e.2)
      ((t.prune source).prune target)

/-- Makes the directories on the way to a location that are missing. -/
def makeParents (t : FileTree) (l : Location) : FileTree :=
  (List.range l.length).foldl
    (fun t n => if (t.at? (l.take n)).isSome then t else t.insert (l.take n) .directory) t

/-- The names of the entries of a directory. -/
def names (t : FileTree) (dir : Location) : List String :=
  t.entries.filterMap fun e =>
    match e.1.getLast? with
    | some name => if e.1.dropLast = dir then some name else none
    | none => none

end FileTree

end Keyring
