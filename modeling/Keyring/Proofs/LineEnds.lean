import Keyring.Proofs.Text
import Mathlib.Data.List.DropRight
/-!
# Line ends

A text may be written with other line ends than line feeds (`withLineEnds`); it reads the same
(`unifyLineEnds_withLineEnds`). Carriage returns and line feeds at the end of a text are gone once its
line ends were made line feeds and trimmed, also where a carriage return before them takes one of them
for its own (`trimLineEnds_unifyLineEnds_append`).
-/

namespace Keyring.Text

variable {cs ds run ending : List Char}

/-! ## At the end of a text -/

theorem isLineEnd_iff {c : Char} : isLineEnd c = true ↔ c = '\r' ∨ c = '\n' := by
  simp [isLineEnd]

theorem trimLineEnds_append (hrun : ∀ c ∈ run, isLineEnd c = true) :
    trimLineEnds (cs ++ run) = trimLineEnds cs := by
  rw [trimLineEnds, trimLineEnds, List.reverse_append,
    List.dropWhile_append_of_pos (by simpa using hrun)]

/-- In a text without carriage returns, line feeds are what is trimmed. -/
theorem trimLineEnds_eq_iff (hcs : '\r' ∉ cs) :
    trimLineEnds cs = ds ↔ (∃ n, cs = ds ++ List.replicate n '\n') ∧ ds.getLast? ≠ some '\n' := by
  constructor
  · rintro rfl
    have hrun : ∀ c ∈ cs.rtakeWhile isLineEnd, c = '\n' := by
      intro c hc
      have hmem : c ∈ cs := (List.rtakeWhile_suffix _ _).subset hc
      rcases isLineEnd_iff.1 (List.mem_rtakeWhile_imp hc) with rfl | hlf
      · exact absurd hmem hcs
      · exact hlf
    refine ⟨⟨(cs.rtakeWhile isLineEnd).length, ?_⟩, fun hlast => ?_⟩
    · rw [← List.eq_replicate_length.2 hrun]
      exact List.rdropWhile_append_rtakeWhile.symm
    · exact absurd (isLineEnd_of_getLast? hlast) (by decide)
  · rintro ⟨⟨n, rfl⟩, hlast⟩
    rw [trimLineEnds_append fun c hc => isLineEnd_iff.2 (.inr (List.eq_of_mem_replicate hc))]
    refine List.rdropWhile_eq_self_iff.2 fun hne hend => ?_
    rcases isLineEnd_iff.1 hend with hcr | hlf
    · exact hcs (List.mem_append_left _ (hcr ▸ List.getLast_mem hne))
    · exact hlast (by rw [List.getLast?_eq_some_getLast hne, hlf])

/-! ## Other line ends -/

/-- The text with `ending` for each line feed. -/
def withLineEnds (ending cs : List Char) : List Char :=
  cs.flatMap fun c => if c = '\n' then ending else [c]

/-- What a line feed may be written as. -/
inductive IsEnding : List Char → Prop
  | crlf : IsEnding ['\r', '\n']
  | cr : IsEnding ['\r']

theorem unifyLineEnds_cr (hcs : cs.head? ≠ some '\n') :
    unifyLineEnds ('\r' :: cs) = '\n' :: unifyLineEnds cs := by
  rw [unifyLineEnds]
  rintro rest rfl
  exact hcs rfl

theorem head?_withLineEnds (hending : IsEnding ending) (cs : List Char) :
    (withLineEnds ending cs).head? ≠ some '\n' := by
  cases cs with
  | nil => simp [withLineEnds]
  | cons c cs =>
    rw [withLineEnds, List.flatMap_cons]
    split
    · cases hending <;> simp
    · next hc => simpa using hc

/-- A text with other line ends reads as it did. -/
theorem unifyLineEnds_withLineEnds (hending : IsEnding ending) (hcs : '\r' ∉ cs) :
    unifyLineEnds (withLineEnds ending cs) = cs := by
  induction cs with
  | nil => rfl
  | cons c cs ih =>
    rw [List.mem_cons, not_or] at hcs
    have hrest := ih hcs.2
    by_cases hc : c = '\n'
    · subst hc
      have hcons : withLineEnds ending ('\n' :: cs) = ending ++ withLineEnds ending cs := rfl
      rw [hcons]
      cases hending with
      | crlf => exact congrArg (List.cons '\n') hrest
      | cr => exact (unifyLineEnds_cr (head?_withLineEnds .cr cs)).trans (by rw [hrest])
    · have hcons : withLineEnds ending (c :: cs) = c :: withLineEnds ending cs := by
        simp [withLineEnds, hc]
      rw [hcons, unifyLineEnds_cons (fun h => hcs.1 h.symm), hrest]

/-! ## Line ends after a text -/

theorem isLineEnd_unifyLineEnds (hrun : ∀ c ∈ run, isLineEnd c = true) :
    ∀ c ∈ unifyLineEnds run, isLineEnd c = true := by
  fun_induction unifyLineEnds run with
  | case1 => simp
  | case2 rest ih => simp_all [isLineEnd_iff]
  | case3 rest _ ih => simp_all [isLineEnd_iff]
  | case4 c rest _ _ ih => simp_all [isLineEnd_iff]

/-- Line ends after a text are made line ends after it, one less if its last character is a carriage
return and a line feed follows. -/
theorem unifyLineEnds_append_run (hrun : ∀ c ∈ run, isLineEnd c = true) (cs : List Char) :
    ∃ run', unifyLineEnds (cs ++ run) = unifyLineEnds cs ++ run' ∧ ∀ c ∈ run', isLineEnd c = true := by
  fun_induction unifyLineEnds cs with
  | case1 => exact ⟨_, rfl, isLineEnd_unifyLineEnds hrun⟩
  | case2 rest ih =>
    obtain ⟨run', hrun', hall⟩ := ih
    exact ⟨run', congrArg (List.cons '\n') hrun', hall⟩
  | case3 rest hrest ih =>
    cases rest with
    | nil =>
      cases run with
      | nil => exact ⟨[], rfl, by simp⟩
      | cons c run =>
        by_cases hc : c = '\n'
        · subst hc
          exact ⟨_, rfl, isLineEnd_unifyLineEnds fun d hd => hrun d (List.mem_cons_of_mem _ hd)⟩
        · exact ⟨_, unifyLineEnds_cr (by simpa using hc), isLineEnd_unifyLineEnds hrun⟩
    | cons c rest =>
      obtain ⟨run', hrun', hall⟩ := ih
      have hc : c ≠ '\n' := fun hc => hrest rest (by rw [hc])
      refine ⟨run', ?_, hall⟩
      rw [List.cons_append, unifyLineEnds_cr (by simpa using hc), hrun']
      rfl
  | case4 c rest _ hc ih =>
    obtain ⟨run', hrun', hall⟩ := ih
    refine ⟨run', ?_, hall⟩
    rw [List.cons_append, unifyLineEnds_cons (fun h => hc h), hrun']
    rfl

/-- Carriage returns and line feeds at the end of a text are trimmed, whatever comes before them. -/
theorem trimLineEnds_unifyLineEnds_append (hrun : ∀ c ∈ run, isLineEnd c = true) (cs : List Char) :
    trimLineEnds (unifyLineEnds (cs ++ run)) = trimLineEnds (unifyLineEnds cs) := by
  obtain ⟨run', hrun', hall⟩ := unifyLineEnds_append_run hrun cs
  rw [hrun', trimLineEnds_append hall]

end Keyring.Text
