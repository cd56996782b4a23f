import Keyring.Proofs.Outcome
/-!
# Two runs in lockstep

Functions with a state that end in a value or a fault, run twice on states that a relation holds of: if
each step ends alike and leads to such states again, the whole does (`Lockstep`). A function is `Steady`
if it even has the same value both times.
-/

namespace Keyring

open Outcome

variable {σ ε α α' β β' : Type} {R : σ → σ → Prop} {P : α → α' → Prop} {Q : β → β' → Prop}

/-- On states that `R` relates, the two functions fail alike, or end in values that `P` relates and in
such states again. -/
def Lockstep (R : σ → σ → Prop) (P : α → α' → Prop) (x : StateT σ (Except ε) α)
    (x' : StateT σ (Except ε) α') : Prop :=
  ∀ s s', R s s' → Alike (fun r r' => P r.1 r'.1 ∧ R r.2 r'.2) (x.run s) (x'.run s')

variable {x : StateT σ (Except ε) α} {x' : StateT σ (Except ε) α'}

theorem lockstep_pure {a : α} {a' : α'} (h : P a a') :
    Lockstep R P (pure a : StateT σ (Except ε) α) (pure a' : StateT σ (Except ε) α') :=
  fun _ _ hs => .ok ⟨h, hs⟩

theorem lockstep_throw (e : ε) :
    Lockstep R P (throw e : StateT σ (Except ε) α) (throw e : StateT σ (Except ε) α') :=
  fun _ _ _ => .error e

theorem Lockstep.bind {next : α → StateT σ (Except ε) β} {next' : α' → StateT σ (Except ε) β'}
    (hx : Lockstep R P x x') (hn : ∀ a a', P a a' → Lockstep R Q (next a) (next' a')) :
    Lockstep R Q (x >>= next) (x' >>= next') := by
  intro s s' hs
  rw [StateT.run_bind, StateT.run_bind]
  exact (hx s s' hs).bind fun r r' hr => hn _ _ hr.1 _ _ hr.2

theorem Lockstep.mono {P' : α → α' → Prop} (hx : Lockstep R P x x') (h : ∀ a a', P a a' → P' a a') :
    Lockstep R P' x x' :=
  fun s s' hs => (hx s s' hs).mono fun _ _ hr => ⟨h _ _ hr.1, hr.2⟩

/-- Functions that start with a look at the state. -/
theorem lockstep_get {next : σ → StateT σ (Except ε) β} {next' : σ → StateT σ (Except ε) β'}
    (hn : ∀ s s', R s s' →
      Alike (fun r r' => Q r.1 r'.1 ∧ R r.2 r'.2) ((next s).run s) ((next' s').run s')) :
    Lockstep R Q (get >>= next) (get >>= next') :=
  hn

theorem lockstep_modify {f f' : σ → σ} (h : ∀ s s', R s s' → R (f s) (f' s')) :
    Lockstep R Eq (modify f : StateT σ (Except ε) Unit) (modify f' : StateT σ (Except ε) Unit) :=
  fun s s' hs => .ok ⟨rfl, h s s' hs⟩

/-! ## The same value -/

/-- On states that `R` relates, the function fails alike, or has the same value, which `P` holds of. -/
def Steady (R : σ → σ → Prop) (P : α → Prop) (x : StateT σ (Except ε) α) : Prop :=
  Lockstep R (fun a a' => a' = a ∧ P a) x x

section Steady

variable {P : α → Prop} {Q : β → Prop}

theorem steady_pure {a : α} (h : P a) : Steady R P (pure a : StateT σ (Except ε) α) :=
  lockstep_pure ⟨rfl, h⟩

theorem steady_throw (e : ε) : Steady R P (throw e : StateT σ (Except ε) α) :=
  lockstep_throw e

theorem Steady.bind {next : α → StateT σ (Except ε) β} (hx : Steady R P x)
    (hn : ∀ a, P a → Steady R Q (next a)) : Steady R Q (x >>= next) := by
  refine Lockstep.bind hx ?_
  rintro a a' ⟨rfl, ha⟩
  exact hn _ ha

theorem steady_modify {f : σ → σ} (h : ∀ s s', R s s' → R (f s) (f s')) :
    Steady R (fun _ => True) (modify f : StateT σ (Except ε) Unit) :=
  (lockstep_modify h).mono fun _ _ _ => ⟨rfl, trivial⟩

theorem steady_mapM {as : List α} {f : α → StateT σ (Except ε) β} (h : ∀ a ∈ as, Steady R Q (f a)) :
    Steady R (fun bs => ∀ b ∈ bs, Q b) (as.mapM f) := by
  induction as with
  | nil => exact steady_pure (by simp)
  | cons a as ih =>
    obtain ⟨ha, has⟩ := List.forall_mem_cons.1 h
    rw [List.mapM_cons]
    exact ha.bind fun b hb => (ih has).bind fun bs hbs => steady_pure (List.forall_mem_cons.2 ⟨hb, hbs⟩)

end Steady

end Keyring
