import Keyring.Failure.Basic
/-!
# Outcomes

Most functions end in a value or a failure and go on with the values of others. The first lemmas
take such a function apart once it has ended in a value, or lead it on (`run_bind_ok`). `FailsOnly`
says of one what it fails with, and `FirstFailure` of a failure that it is that of the first step that
fails. Two that are `Alike` fail alike or have values that a relation holds of; two that are `Matched`
may fail in different ways. The lemmas follow the functions from step to step.
-/

namespace Keyring.Outcome

variable {α β : Type} {o : Except Failure α} {a : α} {b : β}

/-- A function that goes on with an outcome has had a value to go on with. -/
theorem bind_eq_ok {ε α β : Type} {o : Except ε α} {next : α → Except ε β} {b : β} :
    (o >>= next) = .ok b ↔ ∃ a, o = .ok a ∧ next a = .ok b := by
  constructor
  · intro h
    cases o with
    | error f => cases h
    | ok a => exact ⟨a, rfl, h⟩
  · rintro ⟨a, rfl, h⟩
    exact h

/-- A function fails with its first step, or with what it goes on with. -/
theorem bind_eq_error {ε α β : Type} {o : Except ε α} {next : α → Except ε β} {f : ε} :
    (o >>= next) = .error f ↔ o = .error f ∨ ∃ a, o = .ok a ∧ next a = .error f := by
  constructor
  · intro h
    cases o with
    | error g => exact .inl (by rw [show g = f from Except.error.inj h])
    | ok a => exact .inr ⟨a, rfl, h⟩
  · rintro (rfl | ⟨a, rfl, h⟩)
    · rfl
    · exact h

/-- Wrapping a failure changes no value. -/
theorem mapError_eq_ok {wrap : Failure → Failure} : o.mapError wrap = .ok a ↔ o = .ok a := by
  cases o with
  | error f => constructor <;> intro h <;> cases h
  | ok a => exact Iff.rfl

theorem mapError_eq_error {wrap : Failure → Failure} {g : Failure} :
    o.mapError wrap = .error g ↔ ∃ f, o = .error f ∧ wrap f = g := by
  constructor
  · intro h
    cases o with
    | error f => exact ⟨f, rfl, Except.error.inj h⟩
    | ok a => cases h
  · rintro ⟨f, rfl, rfl⟩
    rfl

theorem mapError_bind {wrap : Failure → Failure} {next : α → Except Failure β} :
    (o >>= next).mapError wrap = o.mapError wrap >>= fun a => (next a).mapError wrap := by
  cases o <;> rfl

theorem toOption_eq_some {ε α : Type} {o : Except ε α} {a : α} : o.toOption = some a ↔ o = .ok a := by
  cases o with
  | error f => constructor <;> intro h <;> cases h
  | ok a' =>
    constructor
    · exact fun h => congrArg Except.ok (Option.some.inj h)
    · exact fun h => congrArg some (Except.ok.inj h)

/-- The failure that an outcome is. -/
def failure? {ε α : Type} : Except ε α → Option ε
  | .ok _ => none
  | .error f => some f

theorem failure?_eq_some {ε α : Type} {o : Except ε α} {f : ε} : failure? o = some f ↔ o = .error f := by
  cases o with
  | ok a => constructor <;> intro h <;> cases h
  | error f' =>
    constructor
    · exact fun h => congrArg Except.error (Option.some.inj h)
    · exact fun h => congrArg some (Except.error.inj h)

/-- A step with a state goes on from what the first step came to. -/
theorem run_bind_ok {σ ε α β : Type} {x : StateT σ (Except ε) α} {next : α → StateT σ (Except ε) β}
    {s s' : σ} {a : α} (hx : x.run s = .ok (a, s')) : (x >>= next).run s = (next a).run s' := by
  rw [StateT.run_bind, hx]
  rfl

/-! ## What an outcome fails with -/

/-- Every failure of the outcome satisfies `P`. -/
def FailsOnly (P : Failure → Prop) (o : Except Failure α) : Prop :=
  ∀ f, o = .error f → P f

variable {P Q : Failure → Prop} {f : Failure}

theorem failsOnly_ok : FailsOnly P (.ok a) := by
  intro f h
  cases h

theorem failsOnly_error (hf : P f) : FailsOnly P (.error f : Except Failure α) := by
  intro g h
  cases h
  exact hf

/-- A function fails as its first step does, or as what it goes on with. -/
theorem FailsOnly.bind {next : α → Except Failure β} (ho : FailsOnly P o)
    (hn : ∀ a, o = .ok a → FailsOnly P (next a)) : FailsOnly P (o >>= next) := by
  cases o with
  | error f => exact failsOnly_error (ho f rfl)
  | ok a => exact hn a rfl

theorem FailsOnly.mapError {wrap : Failure → Failure} (ho : FailsOnly Q o)
    (hw : ∀ f, Q f → P (wrap f)) : FailsOnly P (o.mapError wrap) := by
  cases o with
  | error f => exact failsOnly_error (hw f (ho f rfl))
  | ok a => exact failsOnly_ok

/-! ## Steps in their order -/

section Steps

variable {ι : Type} {fails : ι → Failure → Prop} {s : ι} {steps : List ι}

/-- The failure of the first of some steps that fails; `fails` tells what each of them fails with. -/
inductive FirstFailure (fails : ι → Failure → Prop) : List ι → Failure → Prop
  | here {s rest f} : fails s f → FirstFailure fails (s :: rest) f
  | later {s rest f} : (∀ g, ¬ fails s g) → FirstFailure fails rest f → FirstFailure fails (s :: rest) f

theorem not_firstFailure_nil : ¬ FirstFailure fails [] f := nofun

theorem firstFailure_cons : FirstFailure fails (s :: steps) f ↔
    fails s f ∨ (∀ g, ¬ fails s g) ∧ FirstFailure fails steps f := by
  constructor
  · rintro (hs | ⟨hs, hrest⟩)
    · exact .inl hs
    · exact .inr ⟨hs, hrest⟩
  · rintro (hs | ⟨hs, hrest⟩)
    · exact .here hs
    · exact .later hs hrest

@[simp] theorem firstFailure_singleton : FirstFailure fails [s] f ↔ fails s f := by
  simp [firstFailure_cons, not_firstFailure_nil]

theorem firstFailure_append {more : List ι} : FirstFailure fails (steps ++ more) f ↔
    FirstFailure fails steps f ∨ (∀ g, ¬ FirstFailure fails steps g) ∧ FirstFailure fails more f := by
  induction steps with
  | nil => simp [not_firstFailure_nil]
  | cons s steps ih =>
    simp only [List.cons_append, firstFailure_cons, ih, not_or, not_and, forall_and]
    grind

/-- A function fails first where its first steps do, or else where what it goes on with does. -/
theorem firstFailure_bind {next : α → Except Failure β} (steps more : List ι)
    (ho : ∀ g, o = .error g ↔ FirstFailure fails steps g)
    (hn : ∀ a, o = .ok a → (next a = .error f ↔ FirstFailure fails more f)) :
    (o >>= next) = .error f ↔ FirstFailure fails (steps ++ more) f := by
  rw [bind_eq_error, firstFailure_append, ho]
  refine or_congr_right ⟨?_, ?_⟩
  · rintro ⟨a, rfl, h⟩
    refine ⟨fun g hg => ?_, (hn a rfl).1 h⟩
    cases (ho g).2 hg
  · rintro ⟨hnone, h⟩
    cases o with
    | error g => exact absurd ((ho g).1 rfl) (hnone g)
    | ok a => exact ⟨a, rfl, (hn a rfl).2 h⟩

end Steps

/-! ## Two outcomes side by side -/

section Alike

variable {ε α α' β β' : Type} {o : Except ε α} {o' : Except ε α'} {R : α → α' → Prop}
  {S : β → β' → Prop}

/-- Two outcomes are the same failure, or values that `R` relates. -/
inductive Alike (R : α → α' → Prop) : Except ε α → Except ε α' → Prop
  | ok {a : α} {a' : α'} : R a a' → Alike R (.ok a) (.ok a')
  | error (e : ε) : Alike R (.error e) (.error e)

theorem Alike.of_eq {R : α → α → Prop} (hR : ∀ a, R a a) {o o' : Except ε α} (h : o = o') :
    Alike R o o' := by
  subst h
  cases o with
  | error e => exact .error e
  | ok a => exact .ok (hR a)

theorem Alike.cases (ho : Alike R o o') :
    (∃ e, o = .error e ∧ o' = .error e) ∨ ∃ a a', o = .ok a ∧ o' = .ok a' ∧ R a a' := by
  cases ho with
  | ok h => exact .inr ⟨_, _, rfl, rfl, h⟩
  | error e => exact .inl ⟨e, rfl, rfl⟩

theorem alike_eq_iff {o o' : Except ε α} : Alike Eq o o' ↔ o = o' := by
  refine ⟨fun h => ?_, .of_eq fun _ => rfl⟩
  cases h with
  | ok h => rw [h]
  | error e => rfl

theorem Alike.mono {R' : α → α' → Prop} (ho : Alike R o o') (h : ∀ a a', R a a' → R' a a') :
    Alike R' o o' := by
  cases ho with
  | ok ha => exact .ok (h _ _ ha)
  | error e => exact .error e

/-- Two functions are alike if their first steps are and what they go on with is. -/
theorem Alike.bind {next : α → Except ε β} {next' : α' → Except ε β'} (ho : Alike R o o')
    (hn : ∀ a a', R a a' → Alike S (next a) (next' a')) : Alike S (o >>= next) (o' >>= next') := by
  cases ho with
  | ok h => exact hn _ _ h
  | error e => exact .error e

theorem Alike.bind_self {next : α → Except ε β} {next' : α → Except ε β'}
    (hn : ∀ a, o = .ok a → Alike S (next a) (next' a)) : Alike S (o >>= next) (o >>= next') := by
  cases o with
  | error e => exact .error e
  | ok a => exact hn a rfl

theorem Alike.mapError {ε' : Type} (ho : Alike R o o') (wrap : ε → ε') :
    Alike R (o.mapError wrap) (o'.mapError wrap) := by
  cases ho with
  | ok h => exact .ok h
  | error e => exact .error (wrap e)

theorem Alike.map_eq {g : α → β} {g' : α' → β} (ho : Alike (fun a a' => g a = g' a') o o') :
    o.map g = o'.map g' := by
  cases ho with
  | ok h => exact congrArg Except.ok h
  | error e => rfl

/-- A fold is alike if each of its steps is. -/
theorem Alike.foldlM {γ : Type} {xs : List γ} {step : α → γ → Except ε α} {step' : α' → γ → Except ε α'}
    (hstep : ∀ x ∈ xs, ∀ a a', R a a' → Alike R (step a x) (step' a' x)) {a : α} {a' : α'}
    (ha : R a a') : Alike R (xs.foldlM step a) (xs.foldlM step' a') := by
  induction xs generalizing a a' with
  | nil => exact .ok ha
  | cons x xs ih =>
    rw [List.foldlM_cons, List.foldlM_cons]
    exact (hstep x List.mem_cons_self a a' ha).bind fun b b' hb =>
      ih (fun y hy => hstep y (List.mem_cons_of_mem _ hy)) hb

end Alike

/-! ## Two outcomes that may fail in different ways -/

section Matched

variable {ε α α' β β' : Type} {o : Except ε α} {o' : Except ε α'} {R : α → α' → Prop}
  {S : β → β' → Prop}

/-- Two outcomes are values that `R` relates, or both are failures. -/
inductive Matched (R : α → α' → Prop) : Except ε α → Except ε α' → Prop
  | ok {a : α} {a' : α'} : R a a' → Matched R (.ok a) (.ok a')
  | error (e e' : ε) : Matched R (.error e) (.error e')

theorem matched_self {o : Except ε α} : Matched Eq o o := by
  cases o with
  | error e => exact .error e e
  | ok a => exact .ok rfl

theorem Alike.matched (ho : Alike R o o') : Matched R o o' := by
  cases ho with
  | ok h => exact .ok h
  | error e => exact .error e e

theorem Matched.mono {R' : α → α' → Prop} (ho : Matched R o o')
    (h : ∀ a a', o = .ok a → R a a' → R' a a') : Matched R' o o' := by
  cases ho with
  | ok ha => exact .ok (h _ _ rfl ha)
  | error e e' => exact .error e e'

theorem Matched.ok_iff {o o' : Except ε α} (ho : Matched Eq o o') (a : α) : o = .ok a ↔ o' = .ok a := by
  cases ho with
  | ok h => rw [h]
  | error e e' => constructor <;> rintro ⟨⟩

theorem matched_of_ok_iff {o o' : Except ε α} (h : ∀ a, o = .ok a ↔ o' = .ok a) : Matched Eq o o' := by
  cases o with
  | ok a =>
    rw [(h a).1 rfl]
    exact .ok rfl
  | error e =>
    cases o' with
    | ok a => cases (h a).2 rfl
    | error e' => exact .error e e'

/-- Two functions match if their first steps do and what they go on with does. -/
theorem Matched.bind {next : α → Except ε β} {next' : α' → Except ε β'} (ho : Matched R o o')
    (hn : ∀ a a', o = .ok a → R a a' → Matched S (next a) (next' a')) :
    Matched S (o >>= next) (o' >>= next') := by
  cases ho with
  | ok h => exact hn _ _ rfl h
  | error e e' => exact .error e e'

theorem Matched.bind_eq {o o' : Except ε α} {next next' : α → Except ε β} {S : β → β → Prop}
    (ho : Matched Eq o o') (hn : ∀ a, o = .ok a → Matched S (next a) (next' a)) :
    Matched S (o >>= next) (o' >>= next') :=
  ho.bind fun a _ ha heq => heq ▸ hn a ha

theorem Matched.mapError {ε' : Type} (ho : Matched R o o') (wrap wrap' : ε → ε') :
    Matched R (o.mapError wrap) (o'.mapError wrap') := by
  cases ho with
  | ok h => exact .ok h
  | error e e' => exact .error _ _

theorem Matched.toOption_eq {g : α → α'} (ho : Matched (fun a a' => a' = g a) o o') :
    o'.toOption = o.toOption.map g := by
  cases ho with
  | ok h => exact congrArg some h
  | error e e' => rfl

end Matched

end Keyring.Outcome
