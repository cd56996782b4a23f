import Keyring.Text.Split
/-!
# Paths

A path is a root (none, one slash, or exactly two) and the names below it. `Path.ofString` drops
empty components and single dots and keeps double dots, so a path is its own normal form. Every
component is a proper name by construction; hence the text of a path reads back as the path.
-/

namespace Keyring

/-- A name that can be one component of a path. -/
def IsName (s : String) : Prop := s ≠ "" ∧ s ≠ "." ∧ '/' ∉ s.toList

instance (s : String) : Decidable (IsName s) := inferInstanceAs (Decidable (_ ∧ _ ∧ _))

/-- Where a path starts. -/
inductive Root where
  | relative
  | absolute
  /-- Two leading slashes, which are kept apart from one. -/
  | double
  deriving DecidableEq, Repr

structure Path where
  root : Root
  parts : List String
  isName_of_mem : ∀ s ∈ parts, IsName s
  deriving DecidableEq

/-- The slashes at the start of a path. -/
def Root.text : Root → String
  | .relative => ""
  | .absolute => "/"
  | .double => "//"

/-- The root that a number of leading slashes stands for. -/
def Root.ofSlashes : Nat → Root
  | 0 => .relative
  | 2 => .double
  | _ => .absolute

namespace Path

/-- The components of a text, normalised. -/
def components (s : String) : List String :=
  ((Text.split '/' s.toList).map String.ofList).filter fun p => p ≠ "" ∧ p ≠ "."

theorem isName_of_mem_components {s p : String} (h : p ∈ components s) : IsName p := by
  simp only [components, List.mem_filter, List.mem_map, decide_eq_true_eq] at h
  obtain ⟨⟨cs, hcs, rfl⟩, hp⟩ := h
  exact ⟨hp.1, hp.2, by simpa using Text.not_mem_of_mem_split hcs⟩

/-- Reads a path. -/
def ofString (s : String) : Path where
  root := .ofSlashes (s.toList.takeWhile (· = '/')).length
  parts := components s
  isName_of_mem := fun _ => isName_of_mem_components

/-- The text of a path; a path without components and root is a dot. -/
protected def toString (p : Path) : String :=
  if p.root = .relative ∧ p.parts = [] then "." else p.root.text ++ "/".intercalate p.parts

instance : ToString Path := ⟨Path.toString⟩

/-- Whether the path starts at a root. -/
def isAbsolute (p : Path) : Bool :=
  p.root ≠ .relative

/-- The path `q` as seen from `p`. -/
def join (p q : Path) : Path :=
  if q.isAbsolute then q
  else
    { root := p.root
      parts := p.parts ++ q.parts
      isName_of_mem := by
        intro s h
        rcases List.mem_append.1 h with h | h
        · exact p.isName_of_mem s h
        · exact q.isName_of_mem s h }

/-- The entry called `name` of the directory `p`. -/
def child (p : Path) (name : String) : Path :=
  p.join (ofString name)

/-- The path without its last component. -/
def parent (p : Path) : Path where
  root := p.root
  parts := p.parts.dropLast
  isName_of_mem := fun s h => p.isName_of_mem s (List.dropLast_subset _ h)

/-- The path without its first component, as seen from there. -/
def withoutFirst (p : Path) : Path where
  root := .relative
  parts := p.parts.drop 1
  isName_of_mem := fun s h => p.isName_of_mem s (List.mem_of_mem_drop h)

/-- The last component, or nothing. -/
def name (p : Path) : String :=
  p.parts.getLast?.getD ""

/-! ## The text of a path reads back -/

/-- The slashes at the start add no component. -/
theorem components_slash_append (s : String) : components ("/" ++ s) = components s := by
  simp [components, Text.split_cons_self]

theorem components_intercalate {parts : List String} (h : ∀ s ∈ parts, IsName s) :
    components ("/".intercalate parts) = parts := by
  cases parts with
  | nil => simp [components, Text.split]
  | cons s rest =>
    have hsplit : Text.split '/' ("/".intercalate (s :: rest)).toList =
        (s :: rest).map String.toList := by
      rw [String.toList_intercalate]
      refine Text.split_intercalate (by simp) ?_
      intro p hp
      obtain ⟨t, ht, rfl⟩ := List.mem_map.1 hp
      exact (h t ht).2.2
    have hkeep : ((s :: rest).filter fun p => p ≠ "" ∧ p ≠ ".") = s :: rest :=
      List.filter_eq_self.2 fun t ht => by simpa using ⟨(h t ht).1, (h t ht).2.1⟩
    rw [components, hsplit, List.map_map]
    simpa [Function.comp_def] using hkeep

theorem head?_intercalate {parts : List String} (h : ∀ s ∈ parts, IsName s) :
    ("/".intercalate parts).toList.head? ≠ some '/' := by
  cases parts with
  | nil => simp
  | cons s rest =>
    obtain ⟨hne, -, hs⟩ := h s List.mem_cons_self
    rw [String.toList_intercalate]
    cases hc : s.toList with
    | nil => exact absurd (String.toList_eq_nil_iff.1 hc) hne
    | cons c cs =>
      have hc' : c ≠ '/' := fun e => hs (by simp [hc, e])
      cases rest <;> simp [List.intercalate, hc, hc']

/-- The slashes at the start tell the root. -/
theorem ofSlashes_takeWhile (r : Root) {cs : List Char} (h : cs.head? ≠ some '/') :
    Root.ofSlashes ((r.text.toList ++ cs).takeWhile (· = '/')).length = r := by
  have rest : cs.takeWhile (· = '/') = [] := by
    cases cs with
    | nil => rfl
    | cons c cs => exact List.takeWhile_cons_of_neg (by simpa using h)
  cases r <;> simp [Root.text, Root.ofSlashes, rest]

theorem components_text_append (r : Root) (s : String) : components (r.text ++ s) = components s := by
  cases r with
  | relative => simp [Root.text]
  | absolute => exact components_slash_append s
  | double =>
    rw [Root.text, show "//" ++ s = "/" ++ ("/" ++ s) by rw [← String.append_assoc]; rfl,
      components_slash_append, components_slash_append]

/-- The text of a path reads back as the path. -/
theorem ofString_toString (p : Path) : ofString (toString p) = p := by
  obtain ⟨root, parts, h⟩ := p
  show ofString (Path.toString ⟨root, parts, h⟩) = ⟨root, parts, h⟩
  by_cases dot : root = .relative ∧ parts = []
  · obtain ⟨rfl, rfl⟩ := dot
    simp only [Path.toString, and_self, if_true, ofString, Path.mk.injEq]
    exact ⟨by simp [Root.ofSlashes], by simp [components, Text.split]⟩
  · simp only [Path.toString, if_neg dot, ofString, Path.mk.injEq, String.toList_append]
    exact ⟨ofSlashes_takeWhile root (head?_intercalate h),
      (components_text_append root _).trans (components_intercalate h)⟩

/-- Different paths have different texts. -/
theorem toString_inj {p q : Path} : toString p = toString q ↔ p = q :=
  ⟨fun h => by rw [← ofString_toString p, h, ofString_toString], fun h => by rw [h]⟩

/-- A name is a path of one component. -/
theorem ofString_of_isName {name : String} (h : IsName name) :
    ofString name = ⟨.relative, [name], by simpa using h⟩ := by
  have htext : toString (⟨.relative, [name], by simpa using h⟩ : Path) = name := by
    change Path.toString ⟨.relative, [name], by simpa using h⟩ = name
    simp [Path.toString, Root.text]
  rw [← ofString_toString ⟨.relative, [name], by simpa using h⟩, htext]

/-- The entry called `name` has that name. -/
theorem name_child (p : Path) {name : String} (h : IsName name) : (p.child name).name = name := by
  have hrel : (ofString name).isAbsolute = false := by rw [ofString_of_isName h]; rfl
  rw [child, join, if_neg (by simp [hrel])]
  simp [Path.name, ofString_of_isName h]

end Path

end Keyring
