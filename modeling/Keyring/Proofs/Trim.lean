import Keyring.Text.Blank
import Mathlib.Data.List.DropRight
/-!
# Trimmed texts

Trimming leaves the part of a text between what is dropped at its two ends (`trim_eq_iff`).
-/

namespace Keyring.Text

variable {p : Char → Bool} {cs body : List Char}

/-- What `p` picks is gone from both ends of `cs`, and `body` is left. -/
structure IsTrimmed (p : Char → Bool) (cs body : List Char) : Prop where
  around : ∃ before after, cs = before ++ body ++ after ∧ (∀ c ∈ before, p c = true) ∧
    ∀ c ∈ after, p c = true
  head : ∀ c ∈ body.head?, p c = false
  last : ∀ c ∈ body.getLast?, p c = false

theorem dropWhile_eq_self_of_head (h : ∀ c ∈ cs.head?, p c = false) : cs.dropWhile p = cs := by
  cases cs with
  | nil => rfl
  | cons c cs => exact List.dropWhile_cons_of_neg (by simp [h c rfl])

theorem of_mem_head?_dropWhile {c : Char} (hc : c ∈ (cs.dropWhile p).head?) : p c = false := by
  have h := List.head?_dropWhile_not p cs
  rw [Option.mem_def.1 hc] at h
  exact h

/-- Trimming the end leaves the first character that it leaves anything before. -/
theorem head?_dropEndWhile {c : Char} (hc : c ∈ (dropEndWhile p cs).head?) : c ∈ cs.head? := by
  obtain ⟨after, hcs⟩ : dropEndWhile p cs <+: cs := List.rdropWhile_prefix p cs
  obtain ⟨rest, hrest⟩ := List.head?_eq_some_iff.1 hc
  rw [← hcs, hrest]
  rfl

theorem trim_eq_iff : trim p cs = body ↔ IsTrimmed p cs body := by
  constructor
  · rintro rfl
    constructor
    case around =>
      refine ⟨cs.takeWhile p, (cs.dropWhile p).rtakeWhile p, ?_, fun c hc => List.mem_takeWhile_imp hc,
        fun c hc => List.mem_rtakeWhile_imp hc⟩
      rw [List.append_assoc]
      exact ((congrArg _ List.rdropWhile_append_rtakeWhile).trans List.takeWhile_append_dropWhile).symm
    case head => exact fun c hc => of_mem_head?_dropWhile (head?_dropEndWhile hc)
    case last =>
      intro c hc
      rw [trim, dropEndWhile, List.getLast?_reverse] at hc
      exact of_mem_head?_dropWhile hc
  · rintro ⟨⟨before, after, rfl, hbefore, hafter⟩, hhead, hlast⟩
    have hlast' : ∀ c ∈ body.reverse.head?, p c = false := by rwa [List.head?_reverse]
    rw [trim, dropEndWhile, List.append_assoc, List.dropWhile_append_of_pos hbefore]
    -- With nothing left, the white space at the end is dropped from the front.
    rcases List.eq_nil_or_concat' body with rfl | ⟨init, c, hbody⟩
    · rw [List.nil_append, List.dropWhile_eq_nil_iff.2 hafter]
      rfl
    · have hne : body ≠ [] := by rw [hbody]; simp
      have hhead' : ∀ c ∈ (body ++ after).head?, p c = false := by
        rwa [List.head?_append_of_ne_nil _ hne]
      rw [dropWhile_eq_self_of_head hhead', List.reverse_append,
        List.dropWhile_append_of_pos (by simpa using hafter), dropWhile_eq_self_of_head hlast',
        List.reverse_reverse]

/-- Nothing is trimmed where both ends are kept. -/
theorem trim_eq_self (hhead : ∀ c ∈ cs.head?, p c = false) (hlast : ∀ c ∈ cs.getLast?, p c = false) :
    trim p cs = cs :=
  trim_eq_iff.2 ⟨⟨[], [], by simp⟩, hhead, hlast⟩

theorem trim_of_forall (hcs : ∀ c ∈ cs, p c = false) : trim p cs = cs :=
  trim_eq_self (fun _ hc => hcs _ (List.mem_of_head? hc)) (fun _ hc => hcs _ (List.mem_of_getLast? hc))

end Keyring.Text
