import Keyring.Host
/-!
# Paths into a directory

The path of an entry of a directory is that of the directory with one name more (`parts_child`), is
longer by that name (`utf8ByteSize_child`), and tells which entry it is (`child_inj`). The text of a path
holds no NUL character but those of its names (`hasNul_toString`).
-/

namespace Keyring

variable {p : Path} {s name other : String}

/-! ## Names -/

namespace Path

theorem isAbsolute_ofString_of_isName (hname : IsName name) : (ofString name).isAbsolute = false := by
  rw [ofString_of_isName hname]
  rfl

theorem child_eq (p : Path) (hname : IsName name) : p.child name =
    ⟨p.root, p.parts ++ [name], fun s hs => (List.mem_append.1 hs).elim (p.isName_of_mem s)
      fun hs => List.mem_singleton.1 hs ▸ hname⟩ := by
  rw [child, join, if_neg (by simp [isAbsolute_ofString_of_isName hname])]
  simp [ofString_of_isName hname]

theorem parts_child (p : Path) (hname : IsName name) : (p.child name).parts = p.parts ++ [name] := by
  rw [p.child_eq hname]

theorem root_child (p : Path) (hname : IsName name) : (p.child name).root = p.root := by
  rw [p.child_eq hname]

theorem isAbsolute_child (p : Path) (hname : IsName name) :
    (p.child name).isAbsolute = p.isAbsolute := by
  rw [isAbsolute, isAbsolute, p.root_child hname]

theorem parent_child (p : Path) (hname : IsName name) : (p.child name).parent = p := by
  rw [p.child_eq hname, parent]
  simp

theorem child_inj (hname : IsName name) (hother : IsName other) :
    p.child name = p.child other ↔ name = other := by
  constructor
  · intro h
    rw [← p.name_child hname, h, p.name_child hother]
  · exact fun h => by rw [h]

end Path

/-! ## How long paths are -/

theorem utf8ByteSize_intercalate_concat (name : String) {names : List String} (hne : names ≠ []) :
    ("/".intercalate (names ++ [name])).utf8ByteSize =
      ("/".intercalate names).utf8ByteSize + (1 + name.utf8ByteSize) := by
  have hslash : "/".utf8ByteSize = 1 := by decide
  induction names with
  | nil => exact absurd rfl hne
  | cons first names ih =>
    cases names with
    | nil =>
      rw [List.singleton_append, String.intercalate_cons_cons, String.intercalate_singleton,
        String.intercalate_singleton]
      simp only [String.utf8ByteSize_append, hslash]
      omega
    | cons next names =>
      have ih := ih (by simp)
      rw [List.cons_append] at ih
      rw [List.cons_append, List.cons_append, String.intercalate_cons_cons,
        String.intercalate_cons_cons]
      simp only [String.utf8ByteSize_append, ih]
      omega

/-- The name of an entry makes a path longer by its own length and that of a slash. -/
theorem Path.utf8ByteSize_child (p : Path) (hname : IsName name) (hne : p.parts ≠ []) :
    (toString (p.child name)).utf8ByteSize = (toString p).utf8ByteSize + (1 + name.utf8ByteSize) := by
  change (p.child name).toString.utf8ByteSize = p.toString.utf8ByteSize + _
  rw [Path.toString, Path.toString, p.root_child hname, p.parts_child hname, if_neg (by simp),
    if_neg (fun h => hne h.2), String.utf8ByteSize_append, String.utf8ByteSize_append,
    utf8ByteSize_intercalate_concat name hne, Nat.add_assoc]

/-! ## NUL characters -/

theorem hasNul_append (s s' : String) : hasNul (s ++ s') = (hasNul s || hasNul s') := by
  rw [hasNul, String.toList_append, List.any_append]
  rfl

theorem hasNul_intercalate (names : List String) :
    hasNul ("/".intercalate names) = names.any hasNul := by
  induction names with
  | nil => rfl
  | cons name names ih =>
    cases names with
    | nil => simp
    | cons next names =>
      rw [String.intercalate_cons_cons, hasNul_append, hasNul_append, ih, List.any_cons]
      simp [hasNul]

theorem hasNul_toString (p : Path) : hasNul (toString p) = p.parts.any hasNul := by
  change hasNul p.toString = _
  unfold Path.toString
  split
  · next hdot =>
    rw [hdot.2]
    rfl
  · rw [hasNul_append, hasNul_intercalate]
    cases p.root <;> simp [Root.text, hasNul]

theorem hasNul_child (p : Path) (hname : IsName name) :
    hasNul (toString (p.child name)) = (hasNul (toString p) || hasNul name) := by
  rw [hasNul_toString, hasNul_toString, p.parts_child hname, List.any_append]
  simp

theorem Text.mem_of_mem_split {sep c : Char} {cs piece : List Char} (hpiece : piece ∈ split sep cs)
    (hc : c ∈ piece) : c ∈ cs := by
  induction cs generalizing piece with
  | nil => simp_all [split]
  | cons d cs ih =>
    simp only [split] at hpiece
    split at hpiece
    · rcases List.mem_cons.1 hpiece with rfl | hpiece
      · cases hc
      · exact List.mem_cons_of_mem _ (ih hpiece hc)
    · split at hpiece
      · simp_all
      · next first rest hs =>
        rcases List.mem_cons.1 hpiece with rfl | hpiece
        · rcases List.mem_cons.1 hc with rfl | hc
          · exact List.mem_cons_self
          · exact List.mem_cons_of_mem _ (ih (hs ▸ List.mem_cons_self) hc)
        · exact List.mem_cons_of_mem _ (ih (hs ▸ List.mem_cons_of_mem _ hpiece) hc)

/-- A path that was read from a text without NUL characters has none. -/
theorem hasNul_ofString (hs : hasNul s = false) : hasNul (toString (Path.ofString s)) = false := by
  rw [hasNul_toString, List.any_eq_false]
  intro name hname
  simp only [Path.ofString, Path.components, List.mem_filter, List.mem_map] at hname
  obtain ⟨⟨piece, hpiece, rfl⟩, -⟩ := hname
  simp only [hasNul, String.toList_ofList, List.any_eq_true, not_exists, not_and]
  intro c hc
  simp only [hasNul, List.any_eq_false] at hs
  exact hs c (Text.mem_of_mem_split hpiece hc)

end Keyring
