import Keyring.Proofs.Registry
import Keyring.Proofs.Registry.Place
import Keyring.Proofs.Text
/-!
# What a registration leaves behind

A registration puts the handler in its place for one type after the other, up to the first type for
which another handler clashes with it (`register_cases`). Whatever registrations came before, failed
ones among them, the handlers of every type are ranked (`Reachable.sound`). A failed registration
leaves the answers of the registry as they were exactly if the handler has become the preferred one of
no type (`register_restores_iff`).
-/

namespace Keyring

/-- The types that a handler takes, in small letters. -/
def Handler.keys (h : Handler) : List String :=
  h.types.map Text.lower

namespace Registry

variable {r : Registry} {g h : Handler} {t : String} {types : List String}

/-- The handlers of every type are ranked, and no type is listed twice. -/
structure Sound (r : Registry) : Prop where
  ranked : ∀ t, Ranked (r.handlers t)
  nodup : (r.byType.map Prod.fst).Nodup

theorem sound_empty : empty.Sound :=
  ⟨fun _ => .nil, .nil⟩

/-! ## Adding a handler -/

/-- Another handler of the type clashes with `h`. -/
def Blocks (r : Registry) (h : Handler) (t : String) : Prop :=
  ∃ g ∈ r.handlers t, h.Clashes g

/-- The registry with `h` in its place for types in small letters. -/
def add (r : Registry) (h : Handler) (keys : List String) : Registry :=
  keys.foldl (fun r t => r.setHandlers t (putIn h (r.handlers t))) r

theorem handlers_setHandlers (s : String) (hs : List Handler) :
    (r.setHandlers t hs).handlers s = if s = t then hs else r.handlers s := by
  split
  · next hst => rw [hst, handlers_setHandlers_self]
  · next hst => rw [handlers_setHandlers_of_ne hst]

theorem Sound.setHandlers (hr : r.Sound) {hs : List Handler} (hhs : Ranked hs) :
    (r.setHandlers t hs).Sound := by
  constructor
  case ranked =>
    intro s
    rw [handlers_setHandlers]
    split
    · exact hhs
    · exact hr.ranked s
  case nodup =>
    rw [Registry.setHandlers, Entries.keys_set]
    split
    · exact hr.nodup
    · next hnew =>
      have hnew : t ∉ r.byType.map Prod.fst := by simpa using hnew
      refine List.nodup_append.2 ⟨hr.nodup, by simp, fun s hs u hu hsu => ?_⟩
      rw [List.mem_singleton.1 hu] at hsu
      exact hnew (hsu ▸ hs)

/-- No handler clashes with itself. -/
theorem blocks_putIn (s : String) :
    (r.setHandlers t (putIn h (r.handlers t))).Blocks h s ↔ r.Blocks h s := by
  rw [Blocks, Blocks, handlers_setHandlers]
  split
  · next hst =>
    subst hst
    constructor
    · rintro ⟨g, hg, hc⟩
      rcases mem_putIn.1 hg with rfl | hg
      · exact absurd rfl hc.2
      · exact ⟨g, hg, hc⟩
    · rintro ⟨g, hg, hc⟩
      exact ⟨g, mem_putIn.2 (.inr hg), hc⟩
  · exact Iff.rfl

/-- What a handler adds to the handlers of a type. -/
theorem handlers_add (keys : List String) (s : String) :
    ((r.add h keys).handlers s).Perm (List.replicate (keys.count s) h ++ r.handlers s) := by
  induction keys generalizing r with
  | nil => exact .refl _
  | cons t keys ih =>
    refine (ih (r := r.setHandlers t (putIn h (r.handlers t)))).trans ?_
    rw [handlers_setHandlers, List.count_cons]
    split
    · next hst =>
      subst hst
      rw [if_pos (by simp), List.replicate_succ']
      rw [List.append_assoc]
      exact (perm_putIn h _).append_left _
    · next hst => rw [if_neg (by simpa using Ne.symm hst), Nat.add_zero]

theorem mem_handlers_add {keys : List String} :
    g ∈ (r.add h keys).handlers t ↔ g = h ∧ t ∈ keys ∨ g ∈ r.handlers t := by
  rw [(handlers_add keys t).mem_iff, List.mem_append, List.mem_replicate, ← Nat.pos_iff_ne_zero,
    List.count_pos_iff, and_comm (a := t ∈ keys)]

theorem Sound.add (hr : r.Sound) {keys : List String} (hk : ∀ t ∈ keys, ¬ r.Blocks h t) :
    (r.add h keys).Sound := by
  induction keys generalizing r with
  | nil => exact hr
  | cons t keys ih =>
    refine ih (hr.setHandlers ((hr.ranked t).putIn (hk t List.mem_cons_self))) fun s hs => ?_
    rw [blocks_putIn]
    exact hk s (List.mem_cons_of_mem _ hs)

/-! ## Registering -/

theorem place_of_blocks (hr : r.Sound) (hb : r.Blocks h t) :
    place (r.handlers t) h = .error Handler.clash :=
  (place_eq (hr.ranked t)).trans (if_pos hb)

theorem place_of_not_blocks (hr : r.Sound) (hb : ¬ r.Blocks h t) :
    place (r.handlers t) h = .ok (putIn h (r.handlers t)) :=
  (place_eq (hr.ranked t)).trans (if_neg hb)

/-- Registering a handler for types adds it for all of them, or for those before the first one for
which it is blocked. -/
theorem registerTypes_cases (hr : r.Sound) (h : Handler) (types : List String) :
    (∀ t ∈ types, ¬ r.Blocks h (Text.lower t)) ∧
      r.registerTypes h types = (r.add h (types.map Text.lower), none) ∨
    ∃ before type after, types = before ++ type :: after ∧
      (∀ t ∈ before, ¬ r.Blocks h (Text.lower t)) ∧ r.Blocks h (Text.lower type) ∧
      r.registerTypes h types = (r.add h (before.map Text.lower), some Handler.clash) := by
  induction types generalizing r with
  | nil => exact .inl ⟨by simp, rfl⟩
  | cons t types ih =>
    rw [registerTypes]
    by_cases hb : r.Blocks h (Text.lower t)
    · right
      refine ⟨[], t, types, rfl, by simp, hb, ?_⟩
      simp only [place_of_blocks hr hb]
      rfl
    · have hnext : (r.setHandlers (Text.lower t) (putIn h (r.handlers (Text.lower t)))).Sound :=
        hr.setHandlers ((hr.ranked _).putIn hb)
      simp only [place_of_not_blocks hr hb]
      -- A handler is not blocked by itself: what has been added decides nothing for the other types.
      rcases ih hnext with
        ⟨hall, hregister⟩ | ⟨before, type, after, rfl, hbefore, htype, hregister⟩
      · left
        simp only [blocks_putIn] at hall
        exact ⟨List.forall_mem_cons.2 ⟨hb, hall⟩, hregister⟩
      · right
        simp only [blocks_putIn] at hbefore htype
        exact ⟨t :: before, type, after, rfl, List.forall_mem_cons.2 ⟨hb, hbefore⟩, htype, hregister⟩

theorem register_of_not_blocks (hr : r.Sound) (hk : ∀ t ∈ h.keys, ¬ r.Blocks h t) :
    r.register h = (r.add h h.keys, none) := by
  rcases registerTypes_cases hr h h.types with ⟨-, hregister⟩ | ⟨before, type, after, htypes, -, hb, -⟩
  · exact hregister
  · exact absurd hb (hk _ (List.mem_map_of_mem (by rw [htypes]; simp)))

/-- What a registration can do. -/
theorem register_cases (hr : r.Sound) (h : Handler) :
    (∀ t ∈ h.keys, ¬ r.Blocks h t) ∧ r.register h = (r.add h h.keys, none) ∨
    ∃ before t after, h.keys = before ++ t :: after ∧ (∀ s ∈ before, ¬ r.Blocks h s) ∧ r.Blocks h t ∧
      r.register h = (r.add h before, some Handler.clash) := by
  rcases registerTypes_cases hr h h.types with
    ⟨hall, hregister⟩ | ⟨before, type, after, htypes, hbefore, hb, hregister⟩
  · exact .inl ⟨by simpa [Handler.keys] using hall, hregister⟩
  · right
    refine ⟨before.map Text.lower, Text.lower type, after.map Text.lower, ?_, by simpa using hbefore,
      hb, hregister⟩
    rw [Handler.keys, htypes, List.map_append, List.map_cons]

theorem Sound.register (hr : r.Sound) (h : Handler) : (r.register h).1.Sound := by
  rcases register_cases hr h with ⟨hall, hregister⟩ | ⟨before, t, after, -, hbefore, -, hregister⟩
  · rw [hregister]
    exact hr.add hall
  · rw [hregister]
    exact hr.add hbefore

/-- The registries that registrations lead to, failed ones among them. -/
inductive Reachable : Registry → Prop
  | empty : Reachable empty
  | register {r : Registry} (h : Handler) : Reachable r → Reachable (r.register h).1

theorem Reachable.sound (hr : Reachable r) : r.Sound := by
  induction hr with
  | empty => exact sound_empty
  | register h _ ih => exact ih.register h

/-! ## Answers -/

theorem mem_knownTypes (hr : r.Sound) : t ∈ r.knownTypes ↔ r.handlers t ≠ [] := by
  have hmem (hs : List Handler) : (t, hs) ∈ r.byType ↔ r.byType.lookup t = some hs :=
    Entries.mem_iff_lookup hr.nodup
  rw [knownTypes, List.mem_mergeSort, handlers, List.mem_map]
  constructor
  · rintro ⟨⟨s, hs⟩, he, rfl⟩
    obtain ⟨he, hne⟩ := List.mem_filter.1 he
    rw [(hmem hs).1 he]
    simpa using hne
  · intro hne
    cases hl : r.byType.lookup t with
    | none => simp [hl] at hne
    | some hs =>
      rw [hl] at hne
      exact ⟨(t, hs), List.mem_filter.2 ⟨(hmem hs).2 hl, by simpa using hne⟩, rfl⟩

theorem pairwise_knownTypes (hr : r.Sound) : r.knownTypes.Pairwise (· < ·) :=
  Text.pairwise_mergeSort (hr.nodup.sublist (List.filter_sublist.map _))

/-- Sound registries with the same types know them in the same order. -/
theorem knownTypes_eq {r' : Registry} (hr : r.Sound) (hr' : r'.Sound)
    (hsame : ∀ t, r'.handlers t = [] ↔ r.handlers t = []) : r'.knownTypes = r.knownTypes := by
  have hlt := pairwise_knownTypes hr
  have hlt' := pairwise_knownTypes hr'
  have hperm : r'.knownTypes.Perm r.knownTypes := by
    refine (List.perm_ext_iff_of_nodup ?_ ?_).2 fun t => ?_
    · exact hlt'.imp fun hab => hab.ne
    · exact hlt.imp fun hab => hab.ne
    · rw [mem_knownTypes hr, mem_knownTypes hr', ne_eq, ne_eq, hsame]
  exact hperm.eq_of_pairwise (fun a b _ _ hab hba => absurd hba (String.lt_asymm hab)) hlt' hlt

/-- The preferred handler of a type in small letters. -/
def preferred? (r : Registry) (t : String) : Option Handler :=
  (r.handlers t).head?

theorem choose_of_text {x : Datum} {s : String} (hx : x.text? = some s) :
    r.choose x = ((r.preferred? (Text.lower s)).map .ok).getD (.error (r.unknownType x)) := by
  simp only [choose, Metadata.textOf, hx, preferred?, bind, Except.bind]
  cases r.handlers (Text.lower s) <;> rfl

theorem choose_of_no_text {x : Datum} (hx : x.text? = none) :
    r.choose x = .error Metadata.tooLongFailure := by
  simp only [choose, Metadata.textOf, hx]
  rfl

theorem unknownType_eq {r' : Registry} (h : r'.knownTypes = r.knownTypes) (x : Datum) :
    r'.unknownType x = r.unknownType x := by
  rw [unknownType, unknownType, h]

theorem kind_unknownType {x : Datum} {s : String} (hx : x.text? = some s) :
    (r.unknownType x).kind = .unknownType := by
  obtain ⟨text, hs⟩ := spelled?_of_text? hx
  rw [unknownType, hs]
  rfl

/-- The registries give the same answers. -/
structure SameAnswers (r r' : Registry) : Prop where
  choose : ∀ x, r'.choose x = r.choose x
  knownTypes : r'.knownTypes = r.knownTypes

theorem SameAnswers.of_preferred {r' : Registry} (hr : r.Sound) (hr' : r'.Sound)
    (hsame : ∀ t, r'.preferred? t = r.preferred? t) : SameAnswers r r' := by
  have hknown : r'.knownTypes = r.knownTypes := by
    refine knownTypes_eq hr hr' fun t => ?_
    rw [← List.head?_eq_none_iff, ← List.head?_eq_none_iff]
    exact iff_of_eq (congrArg (· = none) (hsame t))
  refine ⟨fun x => ?_, hknown⟩
  cases hx : x.text? with
  | none => rw [choose_of_no_text hx, choose_of_no_text hx]
  | some s => rw [choose_of_text hx, choose_of_text hx, hsame, unknownType_eq hknown]

/-! ## Failed registrations -/

/-- The handler `h` comes before all handlers of the type. -/
def Leads (r : Registry) (h : Handler) (t : String) : Prop :=
  ∀ g ∈ r.handlers t, h.rank < g.rank

instance (r : Registry) (h : Handler) (t : String) : Decidable (r.Leads h t) :=
  inferInstanceAs (Decidable (∀ g ∈ r.handlers t, h.rank < g.rank))

theorem preferred?_setHandlers (hr : r.Sound) (s : String) :
    (r.setHandlers t (putIn h (r.handlers t))).preferred? s =
      if s = t ∧ r.Leads h s then some h else r.preferred? s := by
  rw [preferred?, handlers_setHandlers]
  by_cases hst : s = t
  · subst hst
    rw [if_pos rfl, head?_putIn (hr.ranked s)]
    simp only [true_and]
    rfl
  · rw [if_neg hst, if_neg fun h => hst h.1]
    rfl

/-- An added handler is preferred for the types in which it comes before all others. -/
theorem preferred?_add (hr : r.Sound) {keys : List String} (hk : ∀ t ∈ keys, ¬ r.Blocks h t)
    (s : String) :
    (r.add h keys).preferred? s = if s ∈ keys ∧ r.Leads h s then some h else r.preferred? s := by
  induction keys generalizing r with
  | nil => rw [if_neg (by simp)]; rfl
  | cons t keys ih =>
    obtain ⟨ht, hkeys⟩ := List.forall_mem_cons.1 hk
    have hnext := ih (r := r.setHandlers t (putIn h (r.handlers t)))
      (hr.setHandlers ((hr.ranked t).putIn ht)) fun u hu => by rw [blocks_putIn]; exact hkeys u hu
    refine hnext.trans ?_
    rw [preferred?_setHandlers hr]
    by_cases hst : s = t
    · -- The handler is among those of the type now, and does not come before itself.
      subst hst
      have hnot : ¬ (r.setHandlers s (putIn h (r.handlers s))).Leads h s := by
        intro hleads
        refine lt_irrefl _ (hleads h ?_)
        rw [handlers_setHandlers_self]
        exact mem_putIn.2 (.inl rfl)
      rw [if_neg fun h => hnot h.2]
      simp only [true_and, List.mem_cons, true_or]
    · have hleads : (r.setHandlers t (putIn h (r.handlers t))).Leads h s ↔ r.Leads h s := by
        rw [Leads, Leads, handlers_setHandlers_of_ne hst]
      simp only [hst, false_and, if_false, hleads, List.mem_cons, false_or]

theorem choose_eq_ok_iff {x : Datum} {s : String} (hx : x.text? = some s) :
    r.choose x = .ok g ↔ r.preferred? (Text.lower s) = some g := by
  rw [choose_of_text hx]
  cases r.preferred? (Text.lower s) with
  | none => exact ⟨nofun, nofun⟩
  | some f =>
    exact ⟨fun h => congrArg some (Except.ok.inj h), fun h => congrArg Except.ok (Option.some.inj h)⟩

/-- A handler that comes before all others of a type is not the preferred one. -/
theorem Leads.not_preferred (hl : r.Leads h t) : r.preferred? t ≠ some h := by
  intro hp
  exact lt_irrefl _ (hl h (List.mem_of_head? hp))

/-- A registration that fails has put the handler in its place for the types before the first one for
which another handler clashes with it. The registry answers as before if and only if the handler comes
before all others in none of them; in each of the others it is the preferred one now. -/
theorem register_restores_iff (hr : Reachable r) (h : Handler) (hf : (r.register h).2 ≠ none) :
    ∃ before t after, h.keys = before ++ t :: after ∧ (∀ s ∈ before, ¬ r.Blocks h s) ∧ r.Blocks h t ∧
      (r.register h).2 = some Handler.clash ∧
      (∀ s, (r.register h).1.preferred? s =
        if s ∈ before ∧ r.Leads h s then some h else r.preferred? s) ∧
      (SameAnswers r (r.register h).1 ↔ ∀ s ∈ before, ¬ r.Leads h s) := by
  rcases register_cases hr.sound h with
    ⟨-, hregister⟩ | ⟨before, t, after, hkeys, hbefore, ht, hregister⟩
  · rw [hregister] at hf
    exact absurd rfl hf
  · have hpreferred := preferred?_add hr.sound hbefore
    refine ⟨before, t, after, hkeys, hbefore, ht, by rw [hregister], by rw [hregister]; exact hpreferred,
      ?_⟩
    rw [hregister]
    constructor
    · intro hsame s hs hleads
      have htypes : s ∈ h.types.map Text.lower := by
        rw [← Handler.keys, hkeys]
        exact List.mem_append_left _ hs
      obtain ⟨type, -, rfl⟩ := List.mem_map.1 htypes
      have hnow : (r.add h before).choose (.str type) = .ok h := by
        rw [choose_eq_ok_iff rfl, hpreferred, if_pos ⟨hs, hleads⟩]
      rw [hsame.choose, choose_eq_ok_iff rfl] at hnow
      exact hleads.not_preferred hnow
    · intro hnone
      refine .of_preferred hr.sound (hr.sound.add hbefore) fun s => ?_
      rw [hpreferred, if_neg fun h => hnone s h.1 h.2]

/-- A handler of the type `vault`. -/
def vault : Handler := ⟨0, "VaultHandler", ["vault"], 100, Handler.createKeystore⟩

/-- Another handler with its name and priority, which takes a type more. -/
def newVault : Handler := ⟨1, "VaultHandler", ["vault-v2", "Vault"], 100, Handler.createKeystore⟩

theorem register_restores_vault : Reachable (empty.register vault).1 ∧
    ((empty.register vault).1.register newVault).2 ≠ none ∧
    ∃ before t after, newVault.keys = before ++ t :: after ∧
      (SameAnswers (empty.register vault).1 ((empty.register vault).1.register newVault).1 ↔
        ∀ s ∈ before, ¬ (empty.register vault).1.Leads newVault s) := by
  have hr : Reachable (empty.register vault).1 := .register vault .empty
  have hf : ((empty.register vault).1.register newVault).2 ≠ none := nofun
  obtain ⟨before, t, after, hkeys, -, -, -, -, hiff⟩ := register_restores_iff hr newVault hf
  exact ⟨hr, hf, before, t, after, hkeys, hiff⟩

/-- The second handler is not registered, and is chosen. -/
theorem unregistered_chosen : Reachable (empty.register vault).1 ∧
    ((empty.register vault).1.register newVault).2 = some Handler.clash ∧
    (∃ f, (empty.register vault).1.choose (.str "vault-v2") = .error f ∧ f.kind = .unknownType) ∧
    ((empty.register vault).1.register newVault).1.choose (.str "vault-v2") = .ok newVault := by
  refine ⟨.register vault .empty, rfl, ⟨_, rfl, rfl⟩, rfl⟩

end Registry

end Keyring
