import Keyring.Proofs.Registry.Register
/-!
# Registrations in any order

A sequence of registrations goes through exactly if no two of its handlers clash for a type that both
take (`registerAll_ok_iff`), whatever their order. The handlers of each type are then those that take
it, ranked (`handlers_registerAll`), so the registry chooses the first in rank of them, and the same
one for every order of the sequence (`choose_registerAll`).
-/

namespace Keyring.Registry

variable {r r' : Registry} {g h : Handler} {hs hs' : List Handler} {t : String}

/-- Registers handlers in turn, up to a failure. -/
def registerAll (r : Registry) : List Handler → Except Failure Registry
  | [] => .ok r
  | h :: hs =>
    match r.register h with
    | (r, none) => r.registerAll hs
    | (_, some f) => .error f

/-- Two handlers clash for a type that both take. -/
def Conflict (g h : Handler) : Prop :=
  g.Clashes h ∧ ∃ t ∈ g.keys, t ∈ h.keys

theorem Conflict.symm (hc : Conflict g h) : Conflict h g := by
  obtain ⟨hc, t, hg, hh⟩ := hc
  exact ⟨hc.symm, t, hh, hg⟩

/-! ## When the registrations go through -/

theorem registerAll_cons (hr : r.Sound) (hk : ∀ t ∈ h.keys, ¬ r.Blocks h t) :
    r.registerAll (h :: hs) = (r.add h h.keys).registerAll hs := by
  rw [registerAll, register_of_not_blocks hr hk]

theorem registerAll_cons_of_blocks (hr : r.Sound) (ht : t ∈ h.keys) (hb : r.Blocks h t) :
    r.registerAll (h :: hs) = .error Handler.clash := by
  rcases register_cases hr h with ⟨hall, -⟩ | ⟨before, s, after, -, -, -, hregister⟩
  · exact absurd hb (hall t ht)
  · rw [registerAll, hregister]

/-- A handler blocks another one that was added after it exactly if they are in conflict. -/
theorem blocks_add : (r.add h h.keys).Blocks g t ↔ g.Clashes h ∧ t ∈ h.keys ∨ r.Blocks g t := by
  constructor
  · rintro ⟨f, hf, hc⟩
    rcases mem_handlers_add.1 hf with ⟨rfl, ht⟩ | hf
    · exact .inl ⟨hc, ht⟩
    · exact .inr ⟨f, hf, hc⟩
  · rintro (⟨hc, ht⟩ | ⟨f, hf, hc⟩)
    · exact ⟨h, mem_handlers_add.2 (.inl ⟨rfl, ht⟩), hc⟩
    · exact ⟨f, mem_handlers_add.2 (.inr hf), hc⟩

/-- Registrations go through if no handler is blocked by those before, and no two are in conflict. -/
theorem registerAll_ok_iff (hr : r.Sound) :
    (∃ r', r.registerAll hs = .ok r') ↔
      (∀ h ∈ hs, ∀ t ∈ h.keys, ¬ r.Blocks h t) ∧ hs.Pairwise fun g h => ¬ Conflict g h := by
  induction hs generalizing r with
  | nil => exact ⟨fun _ => ⟨by simp, .nil⟩, fun _ => ⟨r, rfl⟩⟩
  | cons h hs ih =>
    rw [List.forall_mem_cons, List.pairwise_cons]
    by_cases hk : ∀ t ∈ h.keys, ¬ r.Blocks h t
    · -- The others are blocked by what `r` held and by `h`, which is to be in conflict with them.
      rw [registerAll_cons hr hk, ih (hr.add hk)]
      simp only [blocks_add, not_or]
      constructor
      · rintro ⟨hall, hpairs⟩
        refine ⟨⟨hk, fun g hg t ht => (hall g hg t ht).2⟩, ?_, hpairs⟩
        rintro g hg ⟨hc, t, hth, htg⟩
        exact (hall g hg t htg).1 ⟨hc.symm, hth⟩
      · rintro ⟨⟨-, hall⟩, hfirst, hpairs⟩
        refine ⟨fun g hg t ht => ⟨?_, hall g hg t ht⟩, hpairs⟩
        rintro ⟨hc, hth⟩
        exact hfirst g hg ⟨hc.symm, t, hth, ht⟩
    · obtain ⟨t, ht, hb⟩ : ∃ t ∈ h.keys, r.Blocks h t := by simpa using hk
      rw [registerAll_cons_of_blocks hr ht hb]
      constructor
      · rintro ⟨r', hr'⟩
        cases hr'
      · rintro ⟨⟨hall, -⟩, -⟩
        exact absurd hall hk

/-! ## What they lead to -/

/-- A handler, once for each time it is registered for the type. -/
def copies (t : String) (h : Handler) : List Handler :=
  List.replicate (h.keys.count t) h

theorem mem_copies : g ∈ copies t h ↔ g = h ∧ t ∈ h.keys := by
  rw [copies, List.mem_replicate, ← Nat.pos_iff_ne_zero, List.count_pos_iff, and_comm]

/-- The handlers of a type are those that were there and all that have been registered for it, in
their ranks. -/
theorem handlers_registerAll (hr : r.Sound) (hall : r.registerAll hs = .ok r') :
    r'.Sound ∧ ∀ t, (r'.handlers t).Perm (hs.flatMap (copies t) ++ r.handlers t) := by
  induction hs generalizing r with
  | nil =>
    obtain rfl := Except.ok.inj hall
    exact ⟨hr, fun t => .refl _⟩
  | cons h hs ih =>
    have hk : ∀ t ∈ h.keys, ¬ r.Blocks h t := fun t ht hb => by
      rw [registerAll_cons_of_blocks hr ht hb] at hall
      cases hall
    rw [registerAll_cons hr hk] at hall
    obtain ⟨hr', hperm⟩ := ih (hr.add hk) hall
    refine ⟨hr', fun t => (hperm t).trans ?_⟩
    rw [List.flatMap_cons, List.append_assoc]
    refine ((handlers_add h.keys t).append_left _).trans ?_
    rw [← List.append_assoc, ← List.append_assoc]
    exact List.perm_append_comm.append_right _

theorem mem_handlers_registerAll (hall : empty.registerAll hs = .ok r) :
    g ∈ r.handlers t ↔ g ∈ hs ∧ t ∈ g.keys := by
  rw [((handlers_registerAll sound_empty hall).2 t).mem_iff, List.mem_append, List.mem_flatMap]
  constructor
  · rintro (⟨h, hh, hg⟩ | hg)
    · obtain ⟨rfl, ht⟩ := mem_copies.1 hg
      exact ⟨hh, ht⟩
    · cases hg
  · rintro ⟨hg, ht⟩
    exact .inl ⟨g, hg, mem_copies.2 ⟨rfl, ht⟩⟩

/-! ## The order plays no part -/

/-- Handlers with one number are one. -/
def Identified (hs : List Handler) : Prop :=
  ∀ g ∈ hs, ∀ h ∈ hs, g.number = h.number → g = h

/-- Of the handlers that take a type the first in rank. -/
structure Preferred (hs : List Handler) (t : String) (h : Handler) : Prop where
  mem : h ∈ hs
  takes : t ∈ h.keys
  least : ∀ g ∈ hs, t ∈ g.keys → g = h ∨ h.rank < g.rank

theorem preferred_of_head (hid : Identified hs) (hall : empty.registerAll hs = .ok r)
    (hp : r.preferred? t = some h) : Preferred hs t h := by
  have hmem : h ∈ hs ∧ t ∈ h.keys := (mem_handlers_registerAll hall).1 (List.mem_of_head? hp)
  refine ⟨hmem.1, hmem.2, fun g hg ht => ?_⟩
  have hin : g ∈ r.handlers t := (mem_handlers_registerAll hall).2 ⟨hg, ht⟩
  have hranked := (handlers_registerAll sound_empty hall).1.ranked t
  obtain ⟨rest, hrest⟩ := List.head?_eq_some_iff.1 hp
  rw [hrest] at hin hranked
  rcases List.mem_cons.1 hin with rfl | hin
  · exact .inl rfl
  · rcases (List.pairwise_cons.1 hranked).1 g hin with hlt | ⟨-, hnumber⟩
    · exact .inr hlt
    · exact .inl (hid g hg h hmem.1 hnumber.symm)

/-- Ranked handlers are in the only order in which they can be. -/
theorem eq_of_ranked (hid : Identified hs) {as bs : List Handler} (hperm : as.Perm bs)
    (has : Ranked as) (hbs : Ranked bs) (hmem : ∀ g ∈ as, g ∈ hs) : as = bs := by
  refine hperm.eq_of_pairwise (fun a b ha hb hab hba => ?_) has hbs
  have hb : b ∈ as := hperm.mem_iff.2 hb
  rcases hab with hlt | ⟨-, hnumber⟩
  · rcases hba with hlt' | ⟨hrank, -⟩
    · exact absurd hlt' hlt.asymm
    · exact absurd hrank.symm hlt.ne
  · exact hid a (hmem a ha) b (hmem b hb) hnumber

theorem handlers_eq_of_perm (hid : Identified hs) (hperm : hs'.Perm hs)
    (hall : empty.registerAll hs = .ok r) (hall' : empty.registerAll hs' = .ok r') (t : String) :
    r'.handlers t = r.handlers t := by
  obtain ⟨hr, hhandlers⟩ := handlers_registerAll sound_empty hall
  obtain ⟨hr', hhandlers'⟩ := handlers_registerAll sound_empty hall'
  refine eq_of_ranked hid ?_ (hr'.ranked t) (hr.ranked t) fun g hg => ?_
  · exact (hhandlers' t).trans (((hperm.flatMap_right _).append_right _).trans (hhandlers t).symm)
  · exact hperm.mem_iff.1 ((mem_handlers_registerAll hall').1 hg).1

/-- Once handlers have been registered without a failure, the registry chooses for a value the first
in rank of those that take its text, knows the types of all of them in order, and does so whatever the
order in which they were registered. -/
theorem choose_registerAll (hs : List Handler) (r : Registry) (hid : Identified hs)
    (hall : empty.registerAll hs = .ok r) :
    (∀ x s, x.text? = some s →
      (∃ h, Preferred hs (Text.lower s) h ∧ r.choose x = .ok h) ∨
      (∀ h ∈ hs, Text.lower s ∉ h.keys) ∧ r.choose x = .error (r.unknownType x) ∧
        (r.unknownType x).kind = .unknownType) ∧
    (∀ x, x.text? = none → r.choose x = .error Metadata.tooLongFailure) ∧
    r.knownTypes.Pairwise (· < ·) ∧ (∀ t, t ∈ r.knownTypes ↔ ∃ h ∈ hs, t ∈ h.keys) ∧
    ∀ hs', hs'.Perm hs → ∃ r', empty.registerAll hs' = .ok r' ∧ SameAnswers r r' := by
  have hr : r.Sound := (handlers_registerAll sound_empty hall).1
  refine ⟨fun x s hx => ?_, fun x hx => choose_of_no_text hx, pairwise_knownTypes hr, fun t => ?_,
    fun hs' hperm => ?_⟩
  · rw [choose_of_text hx]
    cases hp : r.preferred? (Text.lower s) with
    | some h => exact .inl ⟨h, preferred_of_head hid hall hp, rfl⟩
    | none =>
      refine .inr ⟨fun h hh ht => ?_, rfl, kind_unknownType hx⟩
      have hin : h ∈ r.handlers (Text.lower s) := (mem_handlers_registerAll hall).2 ⟨hh, ht⟩
      rw [preferred?, List.head?_eq_none_iff] at hp
      rw [hp] at hin
      cases hin
  · have hsome : r.handlers t ≠ [] ↔ ∃ g, g ∈ r.handlers t := by
      constructor
      · exact List.exists_mem_of_ne_nil _
      · rintro ⟨_, hg⟩
        exact List.ne_nil_of_mem hg
    rw [mem_knownTypes hr, hsome]
    exact exists_congr fun g => mem_handlers_registerAll hall
  · obtain ⟨-, hpairs⟩ := (registerAll_ok_iff sound_empty).1 ⟨r, hall⟩
    obtain ⟨r', hall'⟩ : ∃ r', empty.registerAll hs' = .ok r' := by
      refine (registerAll_ok_iff sound_empty).2 ⟨?_, ?_⟩
      · rintro h - t - ⟨g, hg, -⟩
        cases hg
      · exact hperm.symm.pairwise hpairs fun hn hc => hn hc.symm
    refine ⟨r', hall', .of_preferred hr (handlers_registerAll sound_empty hall').1 fun t => ?_⟩
    rw [preferred?, preferred?, handlers_eq_of_perm hid hperm hall hall']

/-- A handler that its name puts before the one of raw keys, registered twice for the same type. -/
def auditHandler : Handler := ⟨2, "AuditHandler", ["FILE-RAW", "file-raw"], 10, Handler.createKeystore⟩

theorem choose_registerAll_audit : Identified [Handler.raw, auditHandler, Handler.keystore] ∧
    ∃ r, empty.registerAll [Handler.raw, auditHandler, Handler.keystore] = .ok r ∧
      Preferred [Handler.raw, auditHandler, Handler.keystore] "file-raw" auditHandler ∧
      r.choose (.str "File-Raw") = .ok auditHandler ∧
      ∃ r', empty.registerAll [Handler.keystore, auditHandler, Handler.raw] = .ok r' ∧
        SameAnswers r r' := by
  have hid : Identified [Handler.raw, auditHandler, Handler.keystore] := by
    unfold Identified
    simp [Handler.raw, auditHandler, Handler.keystore]
  obtain ⟨r, hall⟩ : ∃ r, empty.registerAll [Handler.raw, auditHandler, Handler.keystore] = .ok r :=
    ⟨_, rfl⟩
  have hchoose : r.choose (.str "File-Raw") = .ok auditHandler := by
    obtain rfl := Except.ok.inj hall
    rfl
  have hperm : [Handler.keystore, auditHandler, Handler.raw].Perm
      [Handler.raw, auditHandler, Handler.keystore] :=
    List.reverse_perm [Handler.raw, auditHandler, Handler.keystore]
  obtain ⟨hchosen, -, -, -, hany⟩ := choose_registerAll _ r hid hall
  refine ⟨hid, r, hall, ?_, hchoose, hany _ hperm⟩
  rcases hchosen (.str "File-Raw") "File-Raw" rfl with ⟨h, hp, hh⟩ | ⟨-, hnone, -⟩
  · rw [hchoose] at hh
    cases hh
    exact hp
  · rw [hchoose] at hnone
    cases hnone

end Keyring.Registry
