import Keyring.Proofs.Contents
/-!
# Files that are written

A path can be opened for writing if it leads to a file, or to a place in a directory where there is
nothing yet (`OpensAt`): the system comes to the same files and places to write as to read
(`walk_write`). What is written there is read back at the same path (`read_withFile`), and nothing else
changes. Any other path is refused for a reason of the system's (`write_of_closed`).
-/

namespace Keyring

namespace FileTree

variable {t : FileTree} {l m : Location} {name : String} {e : Entry} {names : List String}
  {purpose : Purpose} {links : Nat}

/-! ## Where walks end -/

/-- A walk tells what is at the place where it ends. -/
def Walk.IsTrue (t : FileTree) : Walk → Prop
  | .found l e => t.at? l = some e
  | .missing directory name => t.at? directory = some .directory ∧ t.at? (directory ++ [name]) = none
  | .refused _ => True

theorem isTrue_of_stretch {w : Walk} {here : Location} (hw : t.stretch here names = .ended w) :
    w.IsTrue t := by
  induction names generalizing here with
  | nil =>
    unfold stretch at hw
    split at hw
    · next hhere =>
      cases hw
      exact hhere
    · cases hw
      trivial
  | cons name rest ih =>
    rcases stretch_cons_eq_ended.1 hw with ⟨next, -, hw⟩ | ⟨hturn, rfl⟩ | ⟨r, -, rfl⟩
    · exact ih hw
    · split
      · exact at?_of_turn_eq_missing hturn
      · trivial
    · trivial

theorem isTrue_of_walk {w : Walk} {here : Location}
    (hw : t.walkFor purpose links here names = w) : w.IsTrue t := by
  induction links generalizing here names with
  | zero =>
    unfold walkFor at hw
    split at hw
    · next hs => exact isTrue_of_stretch (hw ▸ hs)
    · rw [← hw]
      trivial
  | succ links ih =>
    unfold walkFor at hw
    split at hw
    · next hs => exact isTrue_of_stretch (hw ▸ hs)
    · exact ih hw

/-! ## Walks to write -/

/-- The walk ended at a file, or at a place for one. -/
def Walk.IsOpen : Walk → Prop
  | .found _ (.file _) => True
  | .missing _ _ => True
  | _ => False

/-- A dot asks whether there is a directory. -/
theorem stretch_dot (t : FileTree) (here : Location) : t.stretch here ["."] =
    .ended (if t.at? here = some .directory then .found here .directory
      else .refused .notDirectory) := by
  by_cases hhere : t.at? here = some .directory <;> simp [stretch, hhere]

theorem not_isOpen_of_stretch_dot {w : Walk} {here : Location}
    (hw : t.stretch here (names ++ ["."]) = .ended w) : ¬ w.IsOpen := by
  induction names generalizing here with
  | nil =>
    cases (t.stretch_dot here).symm.trans hw
    split <;> exact id
  | cons name rest ih =>
    rcases stretch_cons_eq_ended.1 hw with ⟨there, -, hw⟩ | ⟨-, rfl⟩ | ⟨r, -, rfl⟩
    · exact ih hw
    · rw [if_neg (by simp)]
      exact id
    · exact id

theorem exists_rest_of_stretch_dot {here directory : Location} {target : String} {rest : List String}
    (hs : t.stretch here (names ++ ["."]) = .link directory target rest) :
    ∃ rest', rest = rest' ++ ["."] := by
  induction names generalizing here with
  | nil => cases (t.stretch_dot here).symm.trans hs
  | cons name names ih =>
    rcases stretch_cons_eq_link.1 hs with ⟨there, -, hs⟩ | ⟨-, -, rfl⟩
    · exact ih hs
    · exact ⟨names, rfl⟩

/-- A walk whose last name is a dot ends at a directory, or not at all. -/
theorem not_isOpen_walk_dot (t : FileTree) (purpose : Purpose) (links : Nat) :
    ∀ here names, ¬ (t.walkFor purpose links here (names ++ ["."])).IsOpen := by
  induction links with
  | zero =>
    intro here names
    unfold walkFor
    split
    · next hs => exact not_isOpen_of_stretch_dot hs
    · exact id
  | succ links ih =>
    intro here names
    unfold walkFor
    split
    · next hs => exact not_isOpen_of_stretch_dot hs
    · next hs =>
      obtain ⟨rest, rfl⟩ := exists_rest_of_stretch_dot hs
      rw [Purpose.namesAfter, if_neg (by simp), ← List.append_assoc]
      exact ih _ _

/-- To write, a walk ends where it ends to read, unless there is no place for a file either way. -/
theorem walk_write (t : FileTree) (links : Nat) :
    ∀ here names, t.walkFor .write links here names = t.walk links here names ∨
      ¬ (t.walkFor .write links here names).IsOpen ∧ ¬ (t.walk links here names).IsOpen := by
  induction links with
  | zero => exact fun _ _ => .inl rfl
  | succ links ih =>
    intro here names
    unfold walk walkFor
    cases t.stretch here names with
    | ended w => exact .inl rfl
    | link directory target rest =>
      dsimp only [Purpose.namesAfter_read]
      rw [Purpose.namesAfter]
      split
      · next hslash =>
        -- The last name of the target is left out to write, and followed by a dot to read.
        obtain ⟨-, rfl, hslash⟩ := hslash
        rw [namesOf, if_pos hslash, List.append_nil]
        exact .inr ⟨not_isOpen_walk_dot t _ _ _ _, not_isOpen_walk_dot t _ _ _ _⟩
      · exact ih _ _

/-- Through a link that ends in a slash there is nothing to read, and no place to write to. -/
example : (FileTree.empty.insert ["a"] (.link "b/")).walk 1 [] ["a"] = .refused .noEntry ∧
    (FileTree.empty.insert ["a"] (.link "b/")).walkFor .write 1 [] ["a"] = .found [] .directory := by
  decide +kernel

/-! ## Walks to a file that was written -/

/-- A stretch that ended where nothing was finds the file that is put there. -/
theorem stretch_insert_of_missing {here : Location} (bytes : List UInt8)
    (hs : t.stretch here names = .ended (.missing l name)) :
    (t.insert (l ++ [name]) (.file bytes)).stretch here names =
      .ended (.found (l ++ [name]) (.file bytes)) := by
  have hfresh : t.at? (l ++ [name]) = none := (isTrue_of_stretch hs).2
  have hself := at?_insert_self (by simp) t (.file bytes) (l := l ++ [name])
  induction names generalizing here with
  | nil =>
    unfold stretch at hs
    split at hs <;> cases hs
  | cons next rest ih =>
    rw [stretch_cons]
    rcases stretch_cons_eq_ended.1 hs with ⟨there, hturn, hs⟩ | ⟨hturn, hw⟩ | ⟨r, -, hw⟩
    · rcases turn_insert bytes hfresh here next with hsame | ⟨hmissing, -⟩
      · rw [hsame, hturn]
        exact ih hs
      · rw [hturn] at hmissing
        cases hmissing
    · split at hw
      · next hrest =>
        cases hw
        rcases turn_insert bytes hfresh l name with hsame | ⟨-, hgoes⟩
        · -- The place is no longer missing.
          have hnone := (at?_of_turn_eq_missing (hsame.trans hturn)).2
          rw [hself] at hnone
          cases hnone
        · rw [hgoes, hrest]
          exact stretch_file hself []
      · cases hw
    · cases hw

/-- A walk that ended where nothing was finds the file that is put there. -/
theorem walk_insert_of_missing {here : Location} (bytes : List UInt8)
    (hw : t.walkFor purpose links here names = .missing l name) :
    (t.insert (l ++ [name]) (.file bytes)).walkFor purpose links here names =
      .found (l ++ [name]) (.file bytes) := by
  have hfresh : t.at? (l ++ [name]) = none := (isTrue_of_walk hw).2
  induction links generalizing here names with
  | zero =>
    unfold walkFor at hw ⊢
    split at hw
    · next hs =>
      rw [stretch_insert_of_missing bytes (hw ▸ hs)]
    · cases hw
  | succ links ih =>
    unfold walkFor at hw ⊢
    split at hw
    · next hs =>
      rw [stretch_insert_of_missing bytes (hw ▸ hs)]
    · next directory target rest hs =>
      rcases stretch_insert bytes hfresh names here with hsame | ⟨w, w', hended, -⟩
      · rw [hsame, hs]
        exact ih hw
      · rw [hs] at hended
        cases hended

end FileTree

namespace Host

variable {h : Host} {p : Path} {l m : Location} {e : Entry}

theorem at?_withFile_of_ne (hm : m ≠ l) (h : Host) (bytes : List UInt8) :
    (h.withFile l bytes).files.at? m = h.files.at? m :=
  FileTree.at?_insert_of_ne hm _ _

theorem isTrue_locate (h : Host) (p : Path) : (h.locate p).IsTrue h.files := by
  unfold locate reach
  split
  · trivial
  · exact FileTree.isTrue_of_walk rfl

/-! ## Writing a file -/

/-- The path `p` can be opened for writing, and what is written is put at `l`. -/
inductive OpensAt (h : Host) (p : Path) : Location → Prop
  | existing {l bytes} : h.locate p = .found l (.file bytes) → OpensAt h p l
  | new {directory name} : h.locate p = .missing directory name → OpensAt h p (directory ++ [name])

theorem isOpen_locate_iff : (h.locate p).IsOpen ↔ ∃ l, h.OpensAt p l := by
  constructor
  · intro hopen
    cases hw : h.locate p with
    | found l e =>
      rw [hw] at hopen
      cases e with
      | file bytes => exact ⟨l, .existing hw⟩
      | directory => cases hopen
      | link target => cases hopen
    | missing directory name => exact ⟨_, .new hw⟩
    | refused r =>
      rw [hw] at hopen
      cases hopen
  · rintro ⟨l, hp | hp⟩
    all_goals
      rw [hp]
      trivial

theorem reach_write (h : Host) (p : Path) : h.reach .write p = h.locate p ∨
    ¬ (h.reach .write p).IsOpen ∧ ¬ (h.locate p).IsOpen := by
  unfold locate reach
  split
  · exact .inl rfl
  · exact FileTree.walk_write _ _ _ _

theorem write_of_opensAt (hnul : hasNul (toString p) = false) (hp : h.OpensAt p l)
    (bytes : List UInt8) : h.write p bytes = .ok (h.withFile l bytes) := by
  have hreach : h.reach .write p = h.locate p :=
    (h.reach_write p).resolve_right fun hclosed => hclosed.2 (isOpen_locate_iff.2 ⟨l, hp⟩)
  rw [write, if_neg (by simp [hnul]), write?, hreach]
  cases hp with
  | existing hp =>
    rw [hp]
    rfl
  | new hp =>
    rw [hp]
    rfl

/-- The file system refuses to open any other path. -/
theorem write_of_closed (hnul : hasNul (toString p) = false) (hp : ∀ l, ¬ h.OpensAt p l)
    (bytes : List UInt8) : ∃ f, h.write p bytes = .error f ∧ f.kind.isOs = true := by
  have hclosed : ¬ (h.locate p).IsOpen := fun hopen => (isOpen_locate_iff.1 hopen).elim hp
  have hreach : ¬ (h.reach .write p).IsOpen := by
    rcases h.reach_write p with heq | ⟨hn, -⟩
    · rwa [heq]
    · exact hn
  rw [write, if_neg (by simp [hnul]), write?]
  cases hw : h.reach .write p with
  | found l e =>
    cases e with
    | file old => exact absurd (by rw [hw]; trivial) hreach
    | directory => exact ⟨_, rfl, rfl⟩
    | link target => exact ⟨_, rfl, rfl⟩
  | missing directory name => exact absurd (by rw [hw]; trivial) hreach
  | refused r => exact ⟨_, rfl, r.isOs_kind p⟩

/-- What was written is read back. -/
theorem read_withFile (hnul : hasNul (toString p) = false) (hp : h.OpensAt p l)
    (bytes : List UInt8) : (h.withFile l bytes).read p = .ok bytes := by
  cases hp with
  | @existing _ old hp =>
    have hold : h.files.at? l = some (.file old) := by
      have htrue := h.isTrue_locate p
      rwa [hp] at htrue
    have halike : h.Alike (fun m _ bytes' => m = l → bytes' = bytes) (h.withFile l bytes) :=
      alike_withFile hold (fun _ => rfl) fun m hm _ h => absurd h hm
    have hread : h.read p = .ok old := by
      rw [read, if_neg (by simp [hnul]), bytes?, hp]
    rcases (read_alike halike p).cases with ⟨f, hf, -⟩ | ⟨b, b', hb, hb', m, hm, hsame⟩
    · rw [hread] at hf
      cases hf
    · rw [hread] at hb
      cases hb
      rw [hp, FileTree.Walk.found.injEq] at hm
      rw [hb', hsame hm.1.symm]
  | @new directory name hp =>
    have hnow : (h.withFile (directory ++ [name]) bytes).locate p =
        .found (directory ++ [name]) (.file bytes) := by
      unfold locate reach at hp ⊢
      split at hp
      · cases hp
      · next hlong =>
        rw [if_neg hlong]
        exact FileTree.walk_insert_of_missing bytes hp
    rw [read, if_neg (by simp [hnul]), bytes?, hnow]

end Host

end Keyring
