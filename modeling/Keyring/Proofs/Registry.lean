import Keyring.Registry
import Keyring.Proofs.Outcome
/-!
# Who is in the registry

Registering a handler adds that handler and no other, for whatever types it is registered
(`mem_handlers_register`), so the registry of this library chooses between its two handlers
(`choose_builtin`).
-/

namespace Keyring.Registry

variable {r : Registry} {g h : Handler} {t : String}

/-- A place in the list is all that is chosen. -/
theorem perm_of_place {hs out : List Handler} (e : place hs h = .ok out) : out.Perm (h :: hs) := by
  obtain ⟨k, rfl⟩ := place_eq_ok e
  have hp : (hs.take k ++ h :: hs.drop k).Perm (h :: (hs.take k ++ hs.drop k)) := List.perm_middle
  rwa [List.take_append_drop] at hp

theorem mem_handlers_registerTypes {types : List String}
    (hg : g ∈ (r.registerTypes h types).1.handlers t) : g = h ∨ g ∈ r.handlers t := by
  induction types generalizing r with
  | nil => exact .inr hg
  | cons type types ih =>
    rw [registerTypes] at hg
    cases hp : place (r.handlers (Text.lower type)) h with
    | error f => simp only [hp] at hg; exact .inr hg
    | ok hs =>
      simp only [hp] at hg
      rcases ih hg with e | hg
      · exact .inl e
      · by_cases ht : Text.lower type = t
        · subst ht
          rw [handlers_setHandlers_self] at hg
          exact List.mem_cons.1 ((perm_of_place hp).mem_iff.1 hg)
        · rw [handlers_setHandlers_of_ne (Ne.symm ht)] at hg
          exact .inr hg

/-- Registering adds no other handler. -/
theorem mem_handlers_register (hg : g ∈ (r.register h).1.handlers t) : g = h ∨ g ∈ r.handlers t :=
  mem_handlers_registerTypes hg

/-- A handler that is chosen is registered for the type. -/
theorem mem_of_choose {type : Datum} (hc : r.choose type = .ok h) : ∃ t, h ∈ r.handlers t := by
  obtain ⟨s, -, hc⟩ := Outcome.bind_eq_ok.1 hc
  refine ⟨Text.lower s, ?_⟩
  cases hs : r.handlers (Text.lower s) with
  | nil => simp only [hs] at hc; cases hc
  | cons g rest =>
    simp only [hs] at hc
    cases hc
    exact List.mem_cons_self

/-- What can be written can be spelled out. -/
theorem spelled?_of_text? {v : Datum} {s : String} (ht : v.text? = some s) :
    ∃ t, v.spelled? = some t := by
  cases v with
  | str _ => exact ⟨_, by rw [Datum.spelled?]⟩
  | date _ => exact ⟨_, by rw [Datum.spelled?]⟩
  | dateTime _ => exact ⟨_, by rw [Datum.spelled?]⟩
  | _ => exact ⟨s, ht⟩

/-- No handler is found if there is none for the type, or if the type cannot be written. -/
theorem choose_eq_error {type : Datum} {f : Failure} (hc : r.choose type = .error f) :
    type.text? = none ∧ f = Metadata.tooLongFailure ∨ ∃ text, f = .ofText .unknownType text := by
  cases ht : type.text? with
  | none =>
    left
    simp only [choose, Metadata.textOf, ht] at hc
    cases hc
    exact ⟨rfl, rfl⟩
  | some s =>
    right
    obtain ⟨t, hs⟩ := spelled?_of_text? ht
    simp only [choose, Metadata.textOf, ht, bind, Except.bind] at hc
    split at hc
    · cases hc
    · cases hc
      rw [unknownType, hs]
      exact ⟨_, rfl⟩

theorem choose_builtin {type : Datum} (hc : builtin.choose type = .ok h) :
    h = Handler.raw ∨ h = Handler.keystore := by
  obtain ⟨t, ht⟩ := mem_of_choose hc
  rcases mem_handlers_register ht with e | ht
  · exact .inr e
  · rcases mem_handlers_register ht with e | ht
    · exact .inl e
    · cases ht

end Keyring.Registry
