import Keyring.Proofs.FileTree.Write
import Keyring.Proofs.Path
import Mathlib.Data.List.Induction
/-!
# Files that are moved

Moving a file to a place where nothing is takes it away from one location and puts it at another, and
changes nothing else (`moved_move`). A path leads where it led before, unless it led to the file, leads
to it now, or leads nowhere on both trees (`walk_moved`). The entries of a directory are found at the
path of the directory with one name more (`locate_child`).
-/

namespace Keyring

namespace FileTree

variable {t t' : FileTree} {source target dir l : Location} {bytes : List UInt8} {name : String}
  {names : List String} {e : Entry}

/-! ## What is where after a move -/

/-- The tree `t'` has at `target` the file that `t` has at `source`, and is otherwise the same. -/
structure Moved (t t' : FileTree) (source target : Location) (bytes : List UInt8) : Prop where
  file : t.at? source = some (.file bytes)
  free : t.at? target = none
  gone : t'.at? source = none
  there : t'.at? target = some (.file bytes)
  others : ∀ m, m ≠ source → m ≠ target → t'.at? m = t.at? m

/-- Nothing lies below a place that is no directory. -/
theorem WellFormed.directory_of_append (hfiles : t.WellFormed) {below : Location} (hne : below ≠ [])
    (he : t.at? (dir ++ below) = some e) : t.at? dir = some .directory := by
  induction below using List.reverseRecOn generalizing e with
  | nil => exact absurd rfl hne
  | append_singleton below name ih =>
    rw [← List.append_assoc] at he
    have hparent := hfiles.parent he
    by_cases hbelow : below = []
    · rwa [hbelow, List.append_nil] at hparent
    · exact ih hbelow hparent

theorem at?_of_isWithin (hfiles : t.WellFormed) (hl : t.at? l ≠ some .directory) {m : Location}
    (hm : isWithin l m = true) (hne : m ≠ l) : t.at? m = none := by
  obtain ⟨below, rfl⟩ := List.isPrefixOf_iff_prefix.1 hm
  by_contra hsome
  obtain ⟨e, he⟩ := Option.ne_none_iff_exists'.1 hsome
  exact hl (hfiles.directory_of_append (by simpa using hne) he)

/-- Nothing else that is listed lies where a file is or below. -/
theorem eq_of_isWithin_file (hfiles : t.WellFormed) (hfile : t.at? source = some (.file bytes))
    {x : Location × Entry} (hx : x ∈ t.entries) (hwithin : isWithin source x.1 = true) :
    x.1 = source := by
  by_contra hne
  have hroot : x.1 ≠ [] := by
    intro hroot
    rw [hroot] at hwithin
    exact ne_nil_of_file hfile (List.prefix_nil.1 (List.isPrefixOf_iff_prefix.1 hwithin))
  have hnone := at?_of_isWithin hfiles (by rw [hfile]; simp) hwithin hne
  rw [at?, if_neg hroot, (Entries.mem_iff_lookup t.nodup).1 hx] at hnone
  cases hnone

/-- A file is all that lies at its place or below it. -/
theorem entries_restrict_file (hfiles : t.WellFormed) (hfile : t.at? source = some (.file bytes)) :
    (t.restrict (isWithin source)).entries = [(source, .file bytes)] := by
  have hlookup := hfile
  rw [at?, if_neg (ne_nil_of_file hfile)] at hlookup
  obtain ⟨before, after, hentries, hbefore⟩ := List.lookup_eq_some_iff.1 hlookup
  have hnodup := t.nodup
  rw [hentries, List.map_append, List.map_cons, List.nodup_append, List.nodup_cons] at hnodup
  have hnil (xs : List (Location × Entry)) (hxs : ∀ x ∈ xs, x ∈ t.entries ∧ x.1 ≠ source) :
      xs.filter (fun x => isWithin source x.1) = [] :=
    List.filter_eq_nil_iff.2 fun x hx hwithin =>
      (hxs x hx).2 (eq_of_isWithin_file hfiles hfile (hxs x hx).1 hwithin)
  have hself : isWithin source source = true := List.isPrefixOf_iff_prefix.2 List.prefix_rfl
  change t.entries.filter (fun x => isWithin source x.1) = _
  rw [hentries, List.filter_append, List.filter_cons_of_pos (by exact hself), hnil before,
    hnil after, List.nil_append]
  · -- The place of the file is listed once.
    intro x hx
    refine ⟨by rw [hentries]; simp [hx], fun heq => hnodup.2.1.1 ?_⟩
    exact List.mem_map.2 ⟨x, hx, heq⟩
  · -- The entry that is looked up is the first one of its place.
    intro x hx
    refine ⟨by rw [hentries]; simp [hx], ?_⟩
    rintro rfl
    simpa using hbefore x hx

theorem move_eq (hfiles : t.WellFormed) (hfile : t.at? source = some (.file bytes))
    (hne : source ≠ target) : t.move source target =
      ((t.prune source).prune target).insert target (.file bytes) := by
  unfold move
  rw [if_neg hne]
  dsimp only
  rw [entries_restrict_file hfiles hfile]
  simp

theorem moved_move (hfiles : t.WellFormed) (hfile : t.at? source = some (.file bytes))
    (hfree : t.at? target = none) : Moved t (t.move source target) source target bytes := by
  have hne : source ≠ target := by
    rintro rfl
    rw [hfile] at hfree
    cases hfree
  have hsource : source ≠ [] := ne_nil_of_file hfile
  have htarget : target ≠ [] := ne_nil_of_fresh hfree
  -- Nothing but the two places themselves is pruned.
  have hpruned {m : Location} (hroot : m ≠ []) (hm : m ≠ source) (hm' : m ≠ target) :
      ((t.prune source).prune target).at? m = t.at? m := by
    rw [at?_prune hroot, at?_prune hroot]
    split
    · next hwithin => rw [at?_of_isWithin hfiles (by rw [hfree]; simp) hwithin hm']
    · split
      · next hwithin => rw [at?_of_isWithin hfiles (by rw [hfile]; simp) hwithin hm]
      · rfl
  rw [move_eq hfiles hfile hne]
  constructor
  case file => exact hfile
  case free => exact hfree
  case gone =>
    have hself : isWithin source source = true := List.isPrefixOf_iff_prefix.2 List.prefix_rfl
    rw [at?_insert_of_ne hne, at?_prune hsource, at?_prune hsource, hself]
    simp
  case there => exact at?_insert_self htarget _ _
  case others =>
    intro m hm hm'
    rw [at?_insert_of_ne hm']
    by_cases hroot : m = []
    · rw [hroot]
      rfl
    · exact hpruned hroot hm hm'

theorem Moved.wellFormed (hm : Moved t t' source (dir ++ [name]) bytes) (hfiles : t.WellFormed)
    (hdir : t.at? dir = some .directory) (hname : IsFileName name) : t'.WellFormed := by
  -- No directory is moved or replaced.
  have hdirectory {l : Location} (hl : t.at? l = some .directory) : t'.at? l = some .directory := by
    rw [hm.others l, hl]
    · rintro rfl
      rw [hm.file] at hl
      cases hl
    · rintro rfl
      rw [hm.free] at hl
      cases hl
  have hback {l : Location} {e : Entry} (hl : l ≠ dir ++ [name]) (he : t'.at? l = some e) :
      t.at? l = some e := by
    rw [← hm.others l ?_ hl, he]
    rintro rfl
    rw [hm.gone] at he
    cases he
  constructor
  case isFileName =>
    intro dir' name' e he
    by_cases hl : dir' ++ [name'] = dir ++ [name]
    · rw [List.append_singleton_inj.1 hl |>.2]
      exact hname
    · exact hfiles.isFileName (hback hl he)
  case parent =>
    intro dir' name' e he
    by_cases hl : dir' ++ [name'] = dir ++ [name]
    · rw [(List.append_singleton_inj.1 hl).1]
      exact hdirectory hdir
    · exact hdirectory (hfiles.parent (hback hl he))

/-! ## Walks -/

/-- What a moved file can change of a walk: it led to the file or nowhere, and leads to the file now or
nowhere. -/
structure Walk.Shifts (source target : Location) (w w' : Walk) : Prop where
  before : ∀ l e, w = .found l e → l = source
  after : ∀ l e, w' = .found l e → l = target

theorem turn_moved (hm : Moved t t' source target bytes) (here : Location) (name : String) :
    t'.turn here name = t.turn here name ∨
      t.turn here name = .goes source ∧ t'.turn here name = .missing ∨
      t.turn here name = .missing ∧ t'.turn here name = .goes target := by
  have hhere : t'.at? here = t.at? here ∨ t'.turn here name = t.turn here name := by
    by_cases hsource : here = source
    · exact .inr (by simp [turn, hsource, hm.file, hm.gone])
    · by_cases htarget : here = target
      · exact .inr (by simp [turn, htarget, hm.free, hm.there])
      · exact .inl (hm.others here hsource htarget)
  rcases hhere with hhere | hsame
  · by_cases hsource : here ++ [name] = source
    · subst hsource
      rcases turn_of_new hhere.symm hm.gone hm.file with hsame | ⟨hmissing, hgoes⟩
      · exact .inl hsame.symm
      · exact .inr (.inl ⟨hgoes, hmissing⟩)
    · by_cases htarget : here ++ [name] = target
      · subst htarget
        exact (turn_of_new hhere hm.free hm.there).imp_right .inr
      · exact .inl (turn_congr hhere (hm.others _ hsource htarget))
  · exact .inl hsame

/-- Up to a link, only a step to one of the two places is another one than before. -/
theorem stretch_moved (hm : Moved t t' source target bytes) (names : List String) :
    ∀ here, t'.stretch here names = t.stretch here names ∨
      ∃ w w', t.stretch here names = .ended w ∧ t'.stretch here names = .ended w' ∧
        w.Shifts source target w' := by
  induction names with
  | nil =>
    intro here
    by_cases hsource : here = source
    · subst hsource
      refine .inr ⟨.found here (.file bytes), .refused .noEntry, ?_, ?_, by simp, by simp⟩
      · simp [stretch, hm.file]
      · simp [stretch, hm.gone]
    · by_cases htarget : here = target
      · subst htarget
        refine .inr ⟨.refused .noEntry, .found here (.file bytes), ?_, ?_, by simp, by simp⟩
        · simp [stretch, hm.free]
        · simp [stretch, hm.there]
      · exact .inl (by simp only [stretch, hm.others here hsource htarget])
  | cons name rest ih =>
    intro here
    rw [stretch_cons, stretch_cons]
    rcases turn_moved hm here name with hsame | ⟨hgoes, hmissing⟩ | ⟨hmissing, hgoes⟩
    · rw [hsame]
      cases t.turn here name with
      | goes l => exact ih l
      | link text => exact .inl rfl
      | missing => exact .inl rfl
      | refused r => exact .inl rfl
    · rw [hgoes, hmissing]
      refine .inr ⟨_, _, stretch_file hm.file rest, rfl, ?_, ?_⟩
      all_goals split <;> simp
    · rw [hgoes, hmissing]
      refine .inr ⟨_, _, rfl, stretch_file hm.there rest, ?_, ?_⟩
      all_goals split <;> simp

theorem walk_moved (hm : Moved t t' source target bytes) (links : Nat) :
    ∀ here names, t'.walk links here names = t.walk links here names ∨
      (t.walk links here names).Shifts source target (t'.walk links here names) := by
  induction links with
  | zero =>
    intro here names
    rcases stretch_moved hm names here with hs | ⟨w, w', hw, hw', hshifts⟩
    · exact .inl (by simp only [walkFor, hs])
    · exact .inr (by simpa only [walkFor, hw, hw'] using hshifts)
  | succ links ih =>
    intro here names
    rcases stretch_moved hm names here with hs | ⟨w, w', hw, hw', hshifts⟩
    · simp only [walkFor, hs]
      split
      · exact .inl rfl
      · exact ih _ _
    · exact .inr (by simpa only [walkFor, hw, hw'] using hshifts)

/-! ## The entries of a directory -/

theorem stretch_concat {here : Location} (hs : t.stretch here names = .ended (.found l e))
    (name : String) : t.stretch here (names ++ [name]) = t.stretch l [name] := by
  induction names generalizing here with
  | nil =>
    unfold stretch at hs
    split at hs
    · cases hs
      rfl
    · cases hs
  | cons next rest ih =>
    rcases stretch_cons_eq_ended.1 hs with ⟨there, hturn, hs⟩ | ⟨-, hw⟩ | ⟨r, -, hw⟩
    · rw [List.cons_append, stretch_cons, hturn]
      exact ih hs
    · split at hw <;> cases hw
    · cases hw

theorem stretch_concat_of_link {here directory : Location} {text : String} {rest : List String}
    (hs : t.stretch here names = .link directory text rest) (name : String) :
    t.stretch here (names ++ [name]) = .link directory text (rest ++ [name]) := by
  induction names generalizing here with
  | nil =>
    unfold stretch at hs
    split at hs <;> cases hs
  | cons next names ih =>
    rw [List.cons_append, stretch_cons]
    rcases stretch_cons_eq_link.1 hs with ⟨there, hturn, hs⟩ | ⟨rfl, hturn, rfl⟩
    · rw [hturn]
      exact ih hs
    · rw [hturn]

/-- Where the entry `name` of a directory is found. -/
def entryWalk (t : FileTree) (dir : Location) (name : String) : Walk :=
  match t.at? (dir ++ [name]) with
  | some e => .found (dir ++ [name]) e
  | none => .missing dir name

theorem stretch_name (hdir : t.at? dir = some .directory) (hname : IsFileName name)
    (hlink : ∀ text, t.at? (dir ++ [name]) ≠ some (.link text)) :
    t.stretch dir [name] = .ended (t.entryWalk dir name) := by
  rw [stretch_cons, turn, if_neg (by simp [hdir]), if_neg hname.isName.2.1, if_neg hname.ne_dots,
    if_neg (Nat.not_lt.2 hname.size_le), entryWalk]
  cases he : t.at? (dir ++ [name]) with
  | none => rfl
  | some e =>
    cases e with
    | file bytes => simp [stretch, he]
    | directory => simp [stretch, he]
    | link text => exact absurd he (hlink text)

/-- The entries of a directory are found at its path with one name more. -/
theorem walk_concat {links : Nat} {here : Location}
    (hw : t.walkFor .read links here names = .found dir .directory) (hname : IsFileName name)
    (hlink : ∀ text, t.at? (dir ++ [name]) ≠ some (.link text)) :
    t.walkFor .read links here (names ++ [name]) = t.entryWalk dir name := by
  have hdir : t.at? dir = some .directory := isTrue_of_walk hw
  have hended {here : Location} {names : List String} (links : Nat)
      (hs : t.stretch here names = .ended (.found dir .directory)) :
      t.walkFor .read links here (names ++ [name]) = t.entryWalk dir name :=
    walk_of_ended ((stretch_concat hs name).trans (stretch_name hdir hname hlink)) .read links
  induction links generalizing here names with
  | zero =>
    unfold walkFor at hw
    split at hw
    · next hs => exact hended 0 (hw ▸ hs)
    · cases hw
  | succ links ih =>
    unfold walkFor at hw
    split at hw
    · next hs => exact hended _ (hw ▸ hs)
    · next directory text rest hs =>
      -- The walk goes on from the target of the link, with one name more at its end, too.
      rw [walkFor, stretch_concat_of_link hs name]
      dsimp only [Purpose.namesAfter_read]
      rw [← List.append_assoc]
      exact ih hw

end FileTree

namespace Host

open FileTree (IsFileName)

/-- The host after a file was moved. -/
def move (h : Host) (source target : Location) : Host :=
  { h with files := h.files.move source target }

/-- The host `h'` has at `target` the file that `h` has at `source`, and is otherwise the same. -/
structure Moved (h h' : Host) (source target : Location) (bytes : List UInt8) : Prop where
  files : FileTree.Moved h.files h'.files source target bytes
  workingDirectory : h'.workingDirectory = h.workingDirectory
  home : h'.home = h.home
  homes : h'.homes = h.homes

/-- The path leads to what is at `l`. -/
def LeadsTo (h : Host) (p : Path) (l : Location) : Prop :=
  ∃ e, h.locate p = .found l e

instance (h : Host) (p : Path) (l : Location) : Decidable (h.LeadsTo p l) :=
  match hp : h.locate p with
  | .found m e =>
    if hm : m = l then .isTrue ⟨e, by rw [hp, hm]⟩
    else .isFalse fun ⟨_, he⟩ => by rw [hp] at he; cases he; exact hm rfl
  | .missing _ _ => .isFalse fun ⟨_, he⟩ => by rw [hp] at he; cases he
  | .refused _ => .isFalse fun ⟨_, he⟩ => by rw [hp] at he; cases he

variable {h h' : Host} {source target l : Location} {bytes : List UInt8} {p : Path} {name : String}

theorem moved_move (hfiles : h.files.WellFormed) (hfile : h.files.at? source = some (.file bytes))
    (hfree : h.files.at? target = none) : Moved h (h.move source target) source target bytes :=
  ⟨FileTree.moved_move hfiles hfile hfree, rfl, rfl, rfl⟩

theorem Moved.resolve_eq (hm : Moved h h' source target bytes) (baseDir : Path) (v : Datum) :
    Metadata.resolve h' baseDir v = Metadata.resolve h baseDir v := by
  simp only [Metadata.resolve, expandHome, homeOf, hm.home, hm.homes]

theorem Moved.locate (hm : Moved h h' source target bytes) (p : Path) :
    h'.locate p = h.locate p ∨ (h.locate p).Shifts source target (h'.locate p) := by
  unfold Host.locate Host.reach
  rw [hm.workingDirectory]
  split
  · exact .inl rfl
  · exact FileTree.walk_moved hm.files _ _ _

/-- What is in a directory is found at the path of the directory with the name, unless that is too
long. -/
theorem locate_child (hp : h.locate p = .found l .directory) (hname : IsFileName name)
    (hlink : ∀ text, h.files.at? (l ++ [name]) ≠ some (.link text)) :
    h.locate (p.child name) =
      if longestPath < (toString (p.child name)).utf8ByteSize then .refused .nameTooLong
      else h.files.entryWalk l name := by
  unfold Host.locate Host.reach at hp ⊢
  split at hp
  · cases hp
  · rw [p.isAbsolute_child hname.isName, p.parts_child hname.isName,
      FileTree.walk_concat hp hname hlink]

theorem read_eq_ok : h.read p = .ok bytes ↔
    hasNul (toString p) = false ∧ ∃ l, h.locate p = .found l (.file bytes) := by
  unfold read bytes?
  cases hasNul (toString p) with
  | true => simp
  | false =>
    simp only [Bool.false_eq_true, if_false, true_and]
    cases h.locate p with
    | found l e => cases e <;> simp
    | missing directory name => simp
    | refused r => simp

/-- A file of a directory is read at its path unless that is too long. -/
theorem read_child {b : List UInt8} (hp : h.locate p = .found l .directory)
    (hnul : hasNul (toString p) = false) (hname : IsFileName name)
    (hfile : h.files.at? (l ++ [name]) = some (.file bytes)) :
    h.read (p.child name) = .ok b ↔
      (toString (p.child name)).utf8ByteSize ≤ longestPath ∧ b = bytes := by
  rw [read_eq_ok, hasNul_child p hname.isName, hnul, hname.hasNul,
    locate_child hp hname (by simp [hfile]), FileTree.entryWalk, hfile]
  by_cases hlong : longestPath < (toString (p.child name)).utf8ByteSize
  · simp [hlong, Nat.not_le.2 hlong]
  · simp [hlong, Nat.not_lt.1 hlong, eq_comm]

/-- Where a path leads neither to the file before the move nor to it afterwards, the same is read. -/
theorem Moved.read (hm : Moved h h' source target bytes) (hsource : ¬ h.LeadsTo p source)
    (htarget : ¬ h'.LeadsTo p target) (b : List UInt8) : h.read p = .ok b ↔ h'.read p = .ok b := by
  rw [read_eq_ok, read_eq_ok]
  refine and_congr_right fun _ => ?_
  rcases hm.locate p with hsame | ⟨hbefore, hafter⟩
  · rw [hsame]
  · constructor
    · rintro ⟨l, hl⟩
      obtain rfl := hbefore _ _ hl
      exact absurd ⟨_, hl⟩ hsource
    · rintro ⟨l, hl⟩
      obtain rfl := hafter _ _ hl
      exact absurd ⟨_, hl⟩ htarget

end Host

end Keyring
