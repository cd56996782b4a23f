import Keyring.Proofs.Registry.Register
/-!
# When a registration fails

A registration fails exactly if for one of the handler's types a clashing handler is stored, another
one of its priority and name (`register_fails_iff`). What is stored stays stored, through failures as
well, so a handler that has been registered can be registered again at any time.
-/

namespace Keyring.Registry

variable {r : Registry} {g h : Handler} {t : String}

/-! ## What stays stored -/

/-- Registers handlers in turn, and goes on after failures. -/
def registerEach (r : Registry) (hs : List Handler) : Registry :=
  hs.foldl (fun r h => (r.register h).1) r

theorem Sound.registerEach (hr : r.Sound) (hs : List Handler) : (r.registerEach hs).Sound := by
  induction hs generalizing r with
  | nil => exact hr
  | cons h hs ih => exact ih (hr.register h)

theorem mem_handlers_register_of_mem (hr : r.Sound) (hg : g ∈ r.handlers t) :
    g ∈ (r.register h).1.handlers t := by
  rcases register_cases hr h with ⟨-, hregister⟩ | ⟨before, s, after, -, -, -, hregister⟩
  · rw [hregister]
    exact mem_handlers_add.2 (.inr hg)
  · rw [hregister]
    exact mem_handlers_add.2 (.inr hg)

theorem mem_handlers_registerEach (hr : r.Sound) (hs : List Handler) (hg : g ∈ r.handlers t) :
    g ∈ (r.registerEach hs).handlers t := by
  induction hs generalizing r with
  | nil => exact hg
  | cons h hs ih => exact ih (hr.register h) (mem_handlers_register_of_mem hr hg)

/-! ## What blocks a handler -/

instance (r : Registry) (h : Handler) (t : String) : Decidable (r.Blocks h t) :=
  inferInstanceAs (Decidable (∃ g ∈ r.handlers t, h.Clashes g))

theorem blocks_iff : r.Blocks h t ↔
    ∃ g ∈ r.handlers t, g.priority = h.priority ∧ g.name = h.name ∧ g.number ≠ h.number := by
  refine exists_congr fun g => and_congr_right fun _ => ?_
  rw [Handler.Clashes, Handler.rank_eq_iff, eq_comm, @eq_comm _ h.name, ne_comm, and_assoc]

/-- Where a handler is stored, no other one clashes with it. -/
theorem not_blocks_of_mem (hr : r.Sound) (hh : h ∈ r.handlers t) : ¬ r.Blocks h t := by
  rintro ⟨g, hg, hrank, hnumber⟩
  -- Both have one rank, and the ranked list has one handler of each rank.
  obtain ⟨i, hi⟩ := List.mem_iff_getElem?.1 hh
  obtain ⟨j, hj⟩ := List.mem_iff_getElem?.1 hg
  rcases Nat.le_total i j with hij | hji
  · exact hnumber ((hr.ranked t).number_eq hi hj hij hrank)
  · exact hnumber ((hr.ranked t).number_eq hj hi hji hrank.symm).symm

/-! ## Failures -/

/-- What a registration fails with, if it does. -/
theorem register_snd (hr : r.Sound) (h : Handler) :
    (r.register h).2 = if ∃ t ∈ h.keys, r.Blocks h t then some Handler.clash else none := by
  rcases register_cases hr h with ⟨hall, hregister⟩ | ⟨before, t, after, hkeys, -, hb, hregister⟩
  · rw [hregister, if_neg fun ⟨t, ht, hb⟩ => hall t ht hb]
  · rw [hregister, if_pos ⟨t, by rw [hkeys]; simp, hb⟩]

theorem register_snd_eq_none_iff (hr : r.Sound) :
    (r.register h).2 = none ↔ ∀ t ∈ h.keys, ¬ r.Blocks h t := by
  simp [register_snd hr]

/-- What has been registered is stored for all its types. -/
theorem mem_handlers_of_register (hr : r.Sound) (hok : (r.register h).2 = none) (ht : t ∈ h.keys) :
    h ∈ (r.register h).1.handlers t := by
  rw [register_of_not_blocks hr ((register_snd_eq_none_iff hr).1 hok)]
  exact mem_handlers_add.2 (.inl ⟨rfl, ht⟩)

/-- What has been registered is registered again without a failure, whatever comes in between. -/
theorem register_again (hr : r.Sound) (hok : (r.register h).2 = none) (later : List Handler) :
    (((r.register h).1.registerEach later).register h).2 = none := by
  have hlater := (hr.register h).registerEach later
  refine (register_snd_eq_none_iff hlater).2 fun t ht => not_blocks_of_mem hlater ?_
  exact mem_handlers_registerEach (hr.register h) later (mem_handlers_of_register hr hok ht)

/-- A registration fails, because two handlers cannot be compared, if and only if a different handler
with the same priority and name is stored for one of the types in small letters. It does not fail for a
handler that has been registered before, whatever has been registered since or failed to be; and how
often a type is listed, and in letters of which case, plays no part. -/
theorem register_fails_iff (hr : Reachable r) (h : Handler) :
    ((r.register h).2 = some Handler.clash ↔ ∃ t ∈ h.keys, ∃ g ∈ r.handlers t,
      g.priority = h.priority ∧ g.name = h.name ∧ g.number ≠ h.number) ∧
    Handler.clash.kind = .type ∧
    ((r.register h).2 ≠ some Handler.clash → (r.register h).2 = none) ∧
    ((r.register h).2 = none → ∀ later, (((r.register h).1.registerEach later).register h).2 = none) ∧
    ∀ types : List String, (∀ t, t ∈ types.map Text.lower ↔ t ∈ h.keys) →
      (r.register { h with types }).2 = (r.register h).2 := by
  have hsnd := register_snd hr.sound
  refine ⟨?_, rfl, ?_, fun hok => register_again hr.sound hok, fun types htypes => ?_⟩
  · simp [hsnd, blocks_iff]
  · rw [hsnd]
    split
    · exact fun hne => absurd rfl hne
    · exact fun _ => rfl
  · have hblocked : (∃ t ∈ types.map Text.lower, r.Blocks h t) ↔ ∃ t ∈ h.keys, r.Blocks h t :=
      exists_congr fun t => and_congr_left' (htypes t)
    rw [hsnd, hsnd, ← if_congr hblocked rfl rfl]
    rfl

/-- The registry after the handler of two types has been registered for the first of them only. -/
def halfRegistered : Registry :=
  ((empty.register vault).1.register newVault).1

/-- The registration fails again, and that of the handler it clashes with never does. -/
theorem register_fails_halfRegistered : Reachable halfRegistered ∧
    (halfRegistered.register newVault).2 = some Handler.clash ∧
    (halfRegistered.register vault).2 = none ∧
    ∀ later, (((halfRegistered.register vault).1.registerEach later).register vault).2 = none := by
  have hr : Reachable halfRegistered := .register newVault (.register vault .empty)
  have hagain : (halfRegistered.register vault).2 = none :=
    register_again sound_empty rfl [newVault]
  obtain ⟨-, -, -, hlater, -⟩ := register_fails_iff hr vault
  refine ⟨hr, (register_fails_iff hr newVault).1.2 ?_, hagain, hlater hagain⟩
  exact ⟨"vault", List.mem_cons_of_mem _ List.mem_cons_self, vault, List.mem_cons_self, rfl, rfl, nofun⟩

end Keyring.Registry
