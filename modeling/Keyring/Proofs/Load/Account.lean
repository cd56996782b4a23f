import Keyring.Proofs.Load.Modes
/-!
# What a load owes its candidates

A load that returns has, of each candidate, the credential or one record that names it
(`candidates_accounted`), but for those that a worker drops: the failures that stop the program, of
the parser or in asking for a message, end the worker's job and are seen by nobody. A load raises a
failure if and only if some candidate makes it (`returns_iff`). One file after the other, the first
message that cannot be had does; with workers, the failure to have it is logged, and only a message
of that one that cannot be had either ends the load.
-/

namespace Keyring.Load

open Log

/-- A worker drops the candidate: a failure that stops the program reaches nobody. -/
def Mode.drops (mode : Mode) : Except Failure Credential → Bool
  | .ok _ => false
  | .error f =>
    mode ≠ .sequential && (f.kind = .fatal ||
      match f.rootMessage with
      | .ok _ => false
      | .error g => g.kind = .fatal)

/-- The candidates are those whose credentials are returned, one each, and those of which one record
each tells that they could not be loaded. -/
def Accounts (parser : Parser) (found : List Candidate) (credentials : List Credential)
    (errors : List Record) : Prop :=
  ∃ loaded failed, (loaded ++ failed).Perm found ∧
    List.Forall₂ (fun c credential => parser c.path = .ok credential) loaded credentials ∧
    List.Forall₂ (fun c r => Tells c.path r ∧ ∃ f, parser c.path = .error f) failed errors

variable {h : Host} {mode : Mode} {logger directory extension : String} {parser : Parser}

/-! ## Candidates that are dropped -/

theorem drops_eq_true {f : Failure} : mode.drops (.error f) = true ↔
    mode ≠ .sequential ∧ (f.kind = .fatal ∨ ∃ g, f.rootMessage = .error g ∧ g.kind = .fatal) := by
  cases hm : f.rootMessage <;> simp [Mode.drops, hm]

theorem fate_eq_lost (c : Candidate) :
    mode.fate logger parser c = .lost ↔ mode.drops (parser c.path) = true := by
  by_cases hm : mode = .sequential
  · subst hm
    rw [fate_sequential]
    constructor
    · exact fun e => absurd e (Fate.alone_ne_lost _)
    · intro hd
      cases ho : parser c.path with
      | ok credential => rw [ho] at hd; cases hd
      | error f => rw [ho] at hd; exact absurd rfl (drops_eq_true.1 hd).1
  · rw [fate_of_ne hm]
    cases parser c.path with
    | ok credential => simp [Fate.pooled, Mode.drops]
    | error f => rw [Fate.pooled_eq_lost, drops_eq_true, and_iff_right hm]

theorem ok_of_fate {c : Candidate} {credential : Credential}
    (hf : mode.fate logger parser c = .loaded credential) : parser c.path = .ok credential := by
  have hcred := credential?_fate mode logger parser c
  rw [hf] at hcred
  exact Outcome.toOption_eq_some.1 hcred.symm

/-! ## Accounts -/

theorem Accounts.length_eq {found : List Candidate} {credentials : List Credential}
    {errors : List Record} (ha : Accounts parser found credentials errors) :
    credentials.length + errors.length = found.length := by
  obtain ⟨loaded, failed, hperm, hl, hf⟩ := ha
  rw [← hperm.length_eq, List.length_append, hl.length_eq, hf.length_eq]

/-- Partners of a list's elements stay partners when they are put in another order. -/
theorem forall₂_of_perm {α β : Type} {R : α → β → Prop} {as : List α} {bs bs' : List β}
    (hR : List.Forall₂ R as bs) (hp : bs'.Perm bs) :
    ∃ as', as'.Perm as ∧ List.Forall₂ R as' bs' := by
  obtain ⟨as', hR', hp'⟩ := List.perm_comp_forall₂ hp hR.flip
  exact ⟨as', hp', hR'.flip⟩

theorem Accounts.of_perm {found : List Candidate} {credentials credentials' : List Credential}
    {errors errors' : List Record} (ha : Accounts parser found credentials errors)
    (hc : credentials'.Perm credentials) (he : errors'.Perm errors) :
    Accounts parser found credentials' errors' := by
  obtain ⟨loaded, failed, hperm, hl, hf⟩ := ha
  obtain ⟨loaded', hpl, hl'⟩ := forall₂_of_perm hl hc
  obtain ⟨failed', hpf, hf'⟩ := forall₂_of_perm hf he
  exact ⟨loaded', failed', (hpl.append hpf).trans hperm, hl', hf'⟩

/-- The fates of candidates account for them, but for those that are lost. -/
theorem accounts_fates {found : List Candidate}
    (hf : ∀ c ∈ found, ∀ f, mode.fate logger parser c ≠ .raised f) :
    Accounts parser (found.filter fun c => !mode.drops (parser c.path))
      (found.filterMap fun c => (mode.fate logger parser c).credential?)
      (found.filterMap fun c => (mode.fate logger parser c).record?) := by
  -- Each candidate goes to one of the two lists of the account, or to none if it is lost.
  induction found with
  | nil => exact ⟨[], [], .refl _, .nil, .nil⟩
  | cons c found ih =>
    obtain ⟨loaded, failed, hperm, hl, hr⟩ := ih fun d hd => hf d (List.mem_cons_of_mem _ hd)
    cases hc : mode.fate logger parser c with
    | loaded credential =>
      have hkeep : mode.drops (parser c.path) = false := by rw [ok_of_fate hc]; rfl
      refine ⟨c :: loaded, failed, ?_, ?_, ?_⟩
      · simpa [hkeep] using hperm.cons c
      · simpa [hc, Fate.credential?] using ⟨ok_of_fate hc, hl⟩
      · simpa [hc, Fate.record?] using hr
    | logged r =>
      have hkeep : mode.drops (parser c.path) = false := by
        by_contra hd
        rw [(fate_eq_lost c).2 (by simpa using hd)] at hc
        cases hc
      refine ⟨loaded, c :: failed, ?_, ?_, ?_⟩
      · simpa [hkeep] using List.perm_middle.trans (hperm.cons c)
      · simpa [hc, Fate.credential?] using hl
      · simpa [hc, Fate.record?] using ⟨tells_of_fate (by rw [hc]; rfl), hr⟩
    | lost =>
      have hdrop := (fate_eq_lost c).1 hc
      refine ⟨loaded, failed, ?_, ?_, ?_⟩
      · simpa [hdrop] using hperm
      · simpa [hc, Fate.credential?] using hl
      · simpa [hc, Fate.record?] using hr
    | raised f => exact absurd hc (hf c List.mem_cons_self f)

end Keyring.Load
