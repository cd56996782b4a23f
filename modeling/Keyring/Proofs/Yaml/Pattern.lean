import Keyring.Proofs.Yaml.Resolve
import Mathlib.Data.List.Basic
/-!
# The characters of a pattern

What can be read off a pattern about the texts that match it: which characters they have
(`Over.of_matches`), which one comes first (`Starts.of_matches`) and which one last
(`Ends.of_matches`). Each is a property of the pattern by its form, and holds of its texts by induction
on the match.
-/

namespace Keyring.Yaml.Pattern

variable {p : Char → Prop} {a b : Pattern} {s : List Char} {parts : List Pattern}

/-- The pattern names only characters with the property. -/
def Over (p : Char → Prop) : Pattern → Prop
  | never | nothing => True
  | one q => ∀ c, q c = true → p c
  | seq a b | alt a b => a.Over p ∧ b.Over p
  | many a => a.Over p

/-- A text of the pattern can start only with characters that have the property. -/
def Starts (p : Char → Prop) : Pattern → Prop
  | never | nothing => True
  | one q => ∀ c, q c = true → p c
  | seq a b => a.Starts p ∧ (a.nullable = true → b.Starts p)
  | alt a b => a.Starts p ∧ b.Starts p
  | many a => a.Starts p

/-- A text of the pattern can end only with characters that have the property. -/
def Ends (p : Char → Prop) : Pattern → Prop
  | never | nothing => True
  | one q => ∀ c, q c = true → p c
  | seq a b => b.Ends p ∧ (b.nullable = true → a.Ends p)
  | alt a b => a.Ends p ∧ b.Ends p
  | many a => a.Ends p

/-! ## Texts of a pattern -/

theorem Over.of_matches (ha : a.Over p) (h : Matches a s) : ∀ c ∈ s, p c := by
  induction h with
  | nothing => simp
  | one hq => simpa using ha _ hq
  | seq _ _ ihs iht => exact fun c hc => (List.mem_append.1 hc).elim (ihs ha.1 c) (iht ha.2 c)
  | left _ ih => exact ih ha.1
  | right _ ih => exact ih ha.2
  | stop => simp
  | more _ _ ihs iht => exact fun c hc => (List.mem_append.1 hc).elim (ihs ha c) (iht ha c)

theorem Starts.of_matches (ha : a.Starts p) (h : Matches a s) : ∀ c ∈ s.head?, p c := by
  induction h with
  | nothing => simp
  | one hq => simpa using ha _ hq
  | @seq a b s t hs _ ihs iht =>
    -- The second pattern starts the text where the first one matched nothing.
    cases s with
    | nil => exact iht (ha.2 (nullable_iff.2 hs))
    | cons c s => exact ihs ha.1
  | left _ ih => exact ih ha.1
  | right _ ih => exact ih ha.2
  | stop => simp
  | @more a s t _ _ ihs iht =>
    cases s with
    | nil => exact iht ha
    | cons c s => exact ihs ha

theorem Ends.of_matches (ha : a.Ends p) (h : Matches a s) : ∀ c ∈ s.getLast?, p c := by
  induction h with
  | nothing => simp
  | one hq => simpa using ha _ hq
  | @seq a b s t _ ht ihs iht =>
    rcases List.eq_nil_or_concat' t with rfl | ⟨init, c, rfl⟩
    · rw [List.append_nil]
      exact ihs (ha.2 (nullable_iff.2 ht))
    · simpa using iht ha.1
  | left _ ih => exact ih ha.1
  | right _ ih => exact ih ha.2
  | stop => simp
  | @more a s t _ _ ihs iht =>
    rcases List.eq_nil_or_concat' t with rfl | ⟨init, c, rfl⟩
    · rw [List.append_nil]
      exact ihs ha
    · simpa using iht ha

end Keyring.Yaml.Pattern
