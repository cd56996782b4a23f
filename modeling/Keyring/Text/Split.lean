/-!
# Splitting at a character

`split` cuts a text at every occurrence of a separator, so that `n` separators give `n + 1`
pieces, none of which holds one. Pieces without a separator that are joined by separators are found
again.
-/

namespace Keyring.Text

/-- The pieces between the occurrences of `sep`. -/
def split (sep : Char) : List Char → List (List Char)
  | [] => [[]]
  | c :: cs =>
    if c = sep then [] :: split sep cs
    else
      match split sep cs with
      | [] => [[c]]
      | piece :: pieces => (c :: piece) :: pieces

theorem not_mem_of_mem_split {sep : Char} {cs piece : List Char} (h : piece ∈ split sep cs) :
    sep ∉ piece := by
  induction cs generalizing piece with
  | nil => simp_all [split]
  | cons c cs ih =>
    simp only [split] at h
    split at h
    · rcases List.mem_cons.1 h with rfl | h
      · simp
      · exact ih h
    · next hc =>
      split at h
      · next hs => simp_all [Ne.symm hc]
      · next p ps hs =>
        rcases List.mem_cons.1 h with rfl | h
        · simp [Ne.symm hc, ih (hs ▸ List.mem_cons_self)]
        · exact ih (hs ▸ List.mem_cons_of_mem _ h)

theorem split_cons_self (sep : Char) (cs : List Char) :
    split sep (sep :: cs) = [] :: split sep cs := by
  simp [split]

theorem split_ne_nil (sep : Char) (cs : List Char) : split sep cs ≠ [] := by
  cases cs with
  | nil => simp [split]
  | cons c cs =>
    simp only [split]
    split
    · simp
    · split <;> simp

/-- A piece that holds no separator stays whole. -/
theorem split_append {sep : Char} {piece : List Char} (h : sep ∉ piece) (cs : List Char) :
    split sep (piece ++ cs) =
      (piece ++ (split sep cs).headD []) :: (split sep cs).tail := by
  induction piece with
  | nil =>
    have hne := split_ne_nil sep cs
    cases hs : split sep cs with
    | nil => exact absurd hs hne
    | cons p ps => simp [hs]
  | cons c piece ih =>
    simp only [List.mem_cons, not_or] at h
    simp [split, Ne.symm h.1, ih h.2]

/-- Pieces that hold no separator are found again after they were joined. -/
theorem split_intercalate {sep : Char} {pieces : List (List Char)} (hne : pieces ≠ [])
    (h : ∀ p ∈ pieces, sep ∉ p) : split sep ([sep].intercalate pieces) = pieces := by
  induction pieces with
  | nil => exact absurd rfl hne
  | cons p ps ih =>
    have hp := h p List.mem_cons_self
    cases ps with
    | nil =>
      have e := split_append hp []
      simpa [split, List.intercalate] using e
    | cons q qs =>
      rw [List.intercalate_cons_cons, List.append_assoc, split_append hp, List.singleton_append,
        split_cons_self, ih (by simp) fun r hr => h r (List.mem_cons_of_mem _ hr)]
      simp

end Keyring.Text
