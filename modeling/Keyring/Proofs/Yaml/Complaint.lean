import Keyring.Yaml.Fault
import Mathlib.Data.List.Basic
/-!
# What complaints show of a text

The message of a complaint quotes the text around its marks (`Complaint.marks`) and nothing else of it.
So for two texts with the same line ends the messages are the same exactly if the snippets at the marks
are (`message_eq_iff`).
-/

namespace Keyring

/-! ## Joined texts -/

namespace Text

variable {sep : String} {xs ys : List String}

theorem append_inj {a b c d : String} (h : a ++ c = b ++ d) (hlength : a.length = b.length) :
    a = b ∧ c = d := by
  have hlists := congrArg String.toList h
  rw [String.toList_append, String.toList_append] at hlists
  rw [← String.length_toList, ← String.length_toList] at hlength
  obtain ⟨hab, hcd⟩ := List.append_inj hlists hlength
  exact ⟨String.toList_inj.1 hab, String.toList_inj.1 hcd⟩

/-- Texts of the same lengths that are the same when joined are the same. -/
theorem intercalate_inj (hlength : xs.map String.length = ys.map String.length)
    (h : sep.intercalate xs = sep.intercalate ys) : xs = ys := by
  induction xs generalizing ys with
  | nil => exact (List.map_eq_nil_iff.1 hlength.symm).symm
  | cons x xs ih =>
    cases ys with
    | nil => cases hlength
    | cons y ys =>
      obtain ⟨hxy, hlength⟩ := List.cons.inj hlength
      cases xs with
      | nil =>
        obtain rfl := List.map_eq_nil_iff.1 hlength.symm
        simpa using h
      | cons x' xs =>
        cases ys with
        | nil => cases hlength
        | cons y' ys =>
          rw [String.intercalate_cons_cons, String.intercalate_cons_cons] at h
          obtain ⟨hfirst, hrest⟩ := append_inj h (by simp [hxy])
          rw [(append_inj hfirst hxy).1, ih hlength hrest]

theorem intercalate_ne_empty {x : String} (hx : x ∈ xs) (hne : x ≠ "") : sep.intercalate xs ≠ "" := by
  induction xs with
  | nil => cases hx
  | cons y xs ih =>
    cases xs with
    | nil =>
      obtain rfl := List.mem_singleton.1 hx
      rwa [String.intercalate_singleton]
    | cons y' xs =>
      rw [String.intercalate_cons_cons]
      intro h
      rw [String.append_eq_empty_iff, String.append_eq_empty_iff] at h
      rcases List.mem_cons.1 hx with rfl | hx
      · exact hne h.1.1
      · exact ih hx h.2

end Text

namespace Yaml

variable {text text' : List Char}

/-- The line ends of the texts are at the same places. -/
def SameLines (text text' : List Char) : Prop :=
  text'.map isLineEnd = text.map isLineEnd

/-- A side of a mark is as long in both texts. -/
theorem snippetSide_alike (h : SameLines text text') :
    (snippetSide text').1.length = (snippetSide text).1.length ∧
      (snippetSide text').2 = (snippetSide text).2 := by
  have hside (cs : List Char) : ((cs.take snippetReach).takeWhile (!isLineEnd ·)).length =
      (((cs.map isLineEnd).take snippetReach).takeWhile (!·)).length := by
    rw [← List.map_take, List.takeWhile_map, List.length_map]
    rfl
  have hlength := hside text'
  rw [h, ← hside text] at hlength
  unfold snippetSide
  dsimp only
  rw [hlength]
  split
  · exact ⟨hlength, rfl⟩
  · exact ⟨by rw [List.length_take, List.length_take, hlength], rfl⟩

theorem length_snippet (h : SameLines text text') (m : Mark) :
    (m.snippet text').length = (m.snippet text).length := by
  have hleft : SameLines (text.take m.index).reverse (text'.take m.index).reverse := by
    rw [SameLines, List.map_reverse, List.map_take, h, List.map_reverse, List.map_take]
  have hright : SameLines (text.drop m.index) (text'.drop m.index) := by
    rw [SameLines, List.map_drop, h, List.map_drop]
  obtain ⟨hleft, hcut⟩ := snippetSide_alike hleft
  obtain ⟨hright, hcut'⟩ := snippetSide_alike hright
  simp only [Mark.snippet, String.length_ofList, List.length_append, List.length_cons,
    List.length_replicate, List.length_reverse, hleft, hright, hcut, hcut']

/-- A description ends with the snippet; what comes before it is no part of the text. -/
theorem exists_describe (m : Mark) :
    ∃ start : String, ∀ text, m.describe text = start ++ m.snippet text :=
  ⟨_, fun _ => rfl⟩

theorem describe_eq_iff (text text' : List Char) (m : Mark) :
    m.describe text' = m.describe text ↔ m.snippet text' = m.snippet text := by
  obtain ⟨start, hdescribe⟩ := exists_describe m
  rw [hdescribe, hdescribe, String.append_right_inj]

theorem length_describe (h : SameLines text text') (m : Mark) :
    (m.describe text').length = (m.describe text).length := by
  obtain ⟨start, hdescribe⟩ := exists_describe m
  rw [hdescribe, hdescribe, String.length_append, String.length_append, length_snippet h]

theorem describe_ne_empty (text : List Char) (m : Mark) : m.describe text ≠ "" := by
  obtain ⟨start, hdescribe⟩ := exists_describe m
  intro h
  rw [hdescribe, String.append_eq_empty_iff] at h
  have hlength := congrArg String.length h.2
  simp [Mark.snippet] at hlength

namespace Complaint

variable {c : Complaint}

/-- The place where the context began, unless it is that of the problem. -/
def shownContext? (c : Complaint) : Option Mark :=
  c.contextMark?.filter fun m => ¬(m.line = c.mark.line ∧ m.column = c.mark.column)

/-- The places that the message shows. -/
def marks (c : Complaint) : List Mark :=
  c.shownContext?.toList ++ [c.mark]

theorem lines_eq (text : List Char) (c : Complaint) : c.lines text = c.context?.toList ++
    (c.shownContext?.toList.map (·.describe text) ++ [c.problem, c.mark.describe text]) := by
  rw [lines, shownContext?, List.append_assoc]
  cases c.contextMark? with
  | none => rfl
  | some m =>
    dsimp only
    split
    · next h => simp [Option.filter, h]
    · next h => simp [Option.filter, h]

theorem length_lines (h : SameLines text text') (c : Complaint) :
    (c.lines text').map String.length = (c.lines text).map String.length := by
  simp [lines_eq, length_describe h]

/-- The messages about two texts with the same line ends are the same exactly if what they show is. -/
theorem message_eq_iff (h : SameLines text text') :
    c.message text' = c.message text ↔ ∀ m ∈ c.marks, m.snippet text' = m.snippet text := by
  constructor
  · intro hmessage
    -- The lines of both messages have the same lengths, so the messages can be taken apart.
    have hlines := Text.intercalate_inj (length_lines h c) hmessage
    rw [lines_eq, lines_eq] at hlines
    obtain ⟨hcontext, hproblem⟩ := List.append_inj (List.append_cancel_left hlines) (by simp)
    intro m hm
    rw [← describe_eq_iff]
    rcases List.mem_append.1 hm with hm | hm
    · exact List.map_inj_left.1 hcontext m hm
    · obtain rfl := List.mem_singleton.1 hm
      simpa using hproblem
  · intro hmarks
    have hdescribe : ∀ m ∈ c.marks, m.describe text' = m.describe text :=
      fun m hm => (describe_eq_iff text text' m).2 (hmarks m hm)
    rw [marks, List.forall_mem_append, List.forall_mem_singleton] at hdescribe
    rw [message, lines_eq, List.map_congr_left hdescribe.1, hdescribe.2, ← lines_eq, message]

theorem message_ne_empty (text : List Char) (c : Complaint) : c.message text ≠ "" := by
  refine Text.intercalate_ne_empty ?_ (describe_ne_empty text c.mark)
  simp [lines_eq]

end Complaint

end Yaml

end Keyring
