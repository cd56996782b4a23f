import Keyring.Text.Lower
import Mathlib.Data.List.Basic
import Mathlib.Data.List.TakeWhile
/-!
# Small letters of the end of a text

A text in small letters ends in the small letters of its end, whatever stands before, but for the form
of capital sigmas (`lowerFrom_eq_iff`). Of the sigmas after a dot only one that nothing that counts
precedes can have another form, the final one, and then a cased letter stands before the dot and none
after the sigma (`suffix_lower_iff`).
-/

namespace Keyring.Text

variable {before before' cs after stem : List Char} {c : Char}

/-! ## The nearest character that counts -/

theorem nearestIsCased_append_of_forall (h : ∀ c ∈ before, isCaseIgnorable c = true) :
    nearestIsCased (before ++ after) = nearestIsCased after := by
  rw [nearestIsCased, List.dropWhile_append_of_pos h, nearestIsCased]

theorem nearestIsCased_append_of_mem (hc : c ∈ before) (h : isCaseIgnorable c = false) :
    nearestIsCased (before ++ after) = nearestIsCased before := by
  have hne : before.dropWhile isCaseIgnorable ≠ [] := by
    rw [Ne, List.dropWhile_eq_nil_iff]
    intro hall
    rw [hall c hc] at h
    cases h
  rw [nearestIsCased, List.dropWhile_append, if_neg (by simpa using hne),
    List.head?_append_of_ne_nil _ hne, nearestIsCased]

/-! ## What stands before a text -/

theorem length_lowerAt (before before' : List Char) (c : Char) (after : List Char) :
    (lowerAt before c after).length = (lowerAt before' c after).length := by
  unfold lowerAt
  split <;> rfl

theorem length_lowerFrom (before before' cs : List Char) :
    (lowerFrom before cs).length = (lowerFrom before' cs).length := by
  induction cs generalizing before before' with
  | nil => rfl
  | cons c cs ih =>
    rw [lowerFrom, lowerFrom, List.length_append, List.length_append, length_lowerAt before before',
      ih (c :: before) (c :: before')]

/-- A text in small letters goes on with the small letters of what follows its start. -/
theorem exists_lowerFrom_append (before cs after : List Char) :
    ∃ start, lowerFrom before (cs ++ after) = start ++ lowerFrom (cs.reverse ++ before) after := by
  induction cs generalizing before with
  | nil => exact ⟨[], rfl⟩
  | cons c cs ih =>
    obtain ⟨start, hstart⟩ := ih (c :: before)
    refine ⟨lowerAt before c (cs ++ after) ++ start, ?_⟩
    rw [List.cons_append, lowerFrom, hstart, List.append_assoc, List.reverse_cons, List.append_assoc]
    rfl

theorem lowerAt_eq_iff : lowerAt before c after = lowerAt before' c after ↔
    (c = 'Σ' → nearestIsCased after = false → nearestIsCased before = nearestIsCased before') := by
  unfold lowerAt
  split
  · next hc =>
    simp only [hc, true_imp_iff]
    cases nearestIsCased before <;> cases nearestIsCased before' <;> cases nearestIsCased after <;>
      decide
  · next hc => simp [hc]

/-- What stands before a text plays no part in its small letters if each capital sigma has the same
form. -/
theorem lowerFrom_eq_iff : lowerFrom before cs = lowerFrom before' cs ↔
    ∀ front rest, cs = front ++ 'Σ' :: rest → nearestIsCased rest = false →
      nearestIsCased (front.reverse ++ before) = nearestIsCased (front.reverse ++ before') := by
  -- Each step moves one character of the text to what stands before the rest.
  induction cs generalizing before before' with
  | nil => simp [lowerFrom]
  | cons c cs ih =>
    have hcons : lowerFrom before (c :: cs) = lowerFrom before' (c :: cs) ↔
        lowerAt before c cs = lowerAt before' c cs ∧
          lowerFrom (c :: before) cs = lowerFrom (c :: before') cs := by
      rw [lowerFrom, lowerFrom]
      exact ⟨fun h => List.append_inj h (length_lowerAt before before' c cs), fun h => by rw [h.1, h.2]⟩
    rw [hcons, lowerAt_eq_iff, ih]
    constructor
    · rintro ⟨hfirst, hrest⟩ front rest heq hnear
      cases front with
      | nil =>
        obtain ⟨rfl, rfl⟩ := List.cons.inj heq
        exact hfirst rfl hnear
      | cons d front =>
        obtain ⟨rfl, rfl⟩ := List.cons.inj heq
        simpa using hrest front rest rfl hnear
    · intro h
      refine ⟨fun hc hnear => h [] cs (by rw [hc]; rfl) hnear, fun front rest heq hnear => ?_⟩
      simpa using h (c :: front) rest (by rw [heq]; rfl) hnear

/-! ## After a dot -/

/-- A capital sigma of `cs` has the final form after the text `stem` and a dot, and another one where
`cs` stands alone. -/
structure TurnsFinal (stem cs : List Char) : Prop where
  stem : nearestIsCased stem.reverse = true
  sigma : ∃ front rest, cs = front ++ 'Σ' :: rest ∧ (∀ c ∈ front, isCaseIgnorable c = true) ∧
    nearestIsCased rest = false

theorem lowerFrom_dot_iff :
    lowerFrom ('.' :: stem.reverse) cs = lowerFrom [] cs ↔ ¬ TurnsFinal stem cs := by
  rw [lowerFrom_eq_iff]
  have hdot : nearestIsCased ('.' :: stem.reverse) = nearestIsCased stem.reverse :=
    nearestIsCased_append_of_forall (List.forall_mem_singleton.2 (by decide))
  constructor
  · rintro h ⟨hstem, front, rest, hcs, hfront, hrest⟩
    have hreverse : ∀ c ∈ front.reverse, isCaseIgnorable c = true := by simpa using hfront
    have hnear := h front rest hcs hrest
    rw [nearestIsCased_append_of_forall hreverse, nearestIsCased_append_of_forall hreverse, hdot,
      hstem] at hnear
    cases hnear
  · intro h front rest hcs hrest
    -- A character that counts hides all that stands before it.
    by_cases hcount : ∃ c ∈ front.reverse, isCaseIgnorable c = false
    · obtain ⟨c, hc, hcount⟩ := hcount
      rw [nearestIsCased_append_of_mem hc hcount, nearestIsCased_append_of_mem hc hcount]
    · have hfront : ∀ c ∈ front.reverse, isCaseIgnorable c = true := by simpa using hcount
      have hstem : nearestIsCased stem.reverse = false :=
        Bool.eq_false_iff.2 fun hstem => h ⟨hstem, front, rest, hcs, by simpa using hfront, hrest⟩
      rw [nearestIsCased_append_of_forall hfront, nearestIsCased_append_of_forall hfront, hdot, hstem]
      rfl

/-- A text of a stem, a dot and an end, in small letters, ends in a dot and the small letters of the
end unless a sigma has another form. -/
theorem suffix_lower_iff : '.' :: lowerFrom [] cs <:+ lowerFrom [] (stem ++ '.' :: cs) ↔
    ¬ TurnsFinal stem cs := by
  obtain ⟨start, hstart⟩ := exists_lowerFrom_append [] stem ('.' :: cs)
  have hdot : lowerAt stem.reverse '.' cs = ['.'] := by
    rw [lowerAt, if_neg (by decide)]
    decide
  rw [← lowerFrom_dot_iff, hstart, List.append_nil, lowerFrom, hdot]
  constructor
  · rintro ⟨front, hfront⟩
    have hlength : ('.' :: lowerFrom [] cs).length =
        ('.' :: lowerFrom ('.' :: stem.reverse) cs).length := by
      rw [List.length_cons, List.length_cons, length_lowerFrom]
    have hsame := (List.append_inj' hfront hlength).2
    exact (List.cons.inj hsame).2.symm
  · intro h
    rw [h]
    exact List.suffix_append start _

end Keyring.Text
