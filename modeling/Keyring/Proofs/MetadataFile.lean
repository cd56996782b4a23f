import Keyring.MetadataFile
import Keyring.Proofs.Failure
import Keyring.Proofs.Registry
/-!
# What metadata files fail with

A metadata file that gives no credential ends in a failure of the metadata, but for four kinds that
are not wrapped: a path with a NUL, a value that cannot be built, a text that is looked for without
end, and a type that cannot be written (`load_escapes_iff`). Whatever the failure is, it can be logged (`load_loggable`).
-/

namespace Keyring.MetadataFile

open Failure Outcome

variable {h : Host} {p : Path} {f : Failure} {text : List Char}

/-! ## The text -/

/-- A failure to read the file is one of the metadata unless the path has a NUL. -/
theorem readFailure_cases (e : h.readText p = .error f) :
    hasNul (toString p) = true ∧ readFailure p f = nulFailure ∨
    hasNul (toString p) = false ∧ (readFailure p f).kind = .metadata := by
  rcases Host.readText_eq_error e with ⟨hn, rfl⟩ | ⟨hn, -, hk⟩
  · exact .inl ⟨hn, rfl⟩
  · refine .inr ⟨hn, ?_⟩
    rw [readFailure, if_pos (by rcases hk with hk | hk <;> simp [hk]), kind_wrap]

theorem readFailure_loggable (hf : f.Loggable) : (readFailure p f).Loggable := by
  unfold readFailure
  split
  · exact hf.wrap (by decide)
  · exact hf

/-! ## The document -/

theorem readDocument_loggable : FailsOnly Loggable (readDocument p text) := by
  unfold readDocument
  split
  · exact failsOnly_ok
  · next fault _ =>
    have hf := fault.toFailure_loggable text
    refine failsOnly_error ?_
    unfold yamlFailure
    split
    · exact hf.wrap (by decide)
    · exact hf

/-- A text that is no document ends in a failure of the metadata, has a value that cannot be built,
or has a scalar whose text has no end. -/
theorem readDocument_eq_error (e : readDocument p text = .error f) :
    f.kind = .metadata ∨
    (∃ flaw message, Yaml.Document.read text = .error (.value flaw message) ∧
      f = .ofText flaw.kind message) ∨
    Yaml.Document.read text = .error .endless ∧ f = Yaml.endlessFailure := by
  unfold readDocument at e
  split at e
  · cases e
  · next fault hr =>
    cases e
    rcases fault.toFailure_cases text with hy | ⟨flaw, message, rfl, hv⟩ | ⟨rfl, -⟩
    · left
      rw [yamlFailure, if_pos hy, kind_wrap]
    · refine .inr (.inl ⟨flaw, message, hr, ?_⟩)
      rw [hv, yamlFailure, if_neg (by simp [flaw.isYaml_kind])]
    · exact .inr (.inr ⟨hr, rfl⟩)

theorem readDocument_eq_ok {d : Yaml.Document} (e : readDocument p text = .ok d) :
    Yaml.Document.read text = .ok d := by
  unfold readDocument at e
  split at e
  · next hr => rw [hr, Except.ok.inj e]
  · cases e

theorem mappingOf_eq_error {d : Yaml.Document} (e : mappingOf p d = .error f) :
    f.kind = .metadata ∧ f.Loggable := by
  unfold mappingOf at e
  split at e
  · cases e
  · cases e
    exact ⟨rfl, Metadata.loggable_failure _⟩

theorem mappingOf_eq_ok {d : Yaml.Document} {m : Metadata} (e : mappingOf p d = .ok m) :
    m = ⟨d.get?⟩ := by
  unfold mappingOf at e
  split at e <;> cases e
  rfl

/-- Only a mapping has a value for a key. -/
theorem mappingOf_of_get? {d : Yaml.Document} {key : String} {v : Datum}
    (e : d.get? key = some v) : mappingOf p d = .ok ⟨d.get?⟩ := by
  unfold mappingOf
  cases he : d.entries? with
  | some entries => rfl
  | none =>
    rw [Yaml.Document.get?, he] at e
    cases e

/-! ## The credential -/

theorem handlerFailure_cases (hk : f.kind ≠ .fatal) :
    (handlerFailure p f).kind.isMetadata = true := by
  unfold handlerFailure
  split
  · next hf => simpa [hk] using hf
  · rw [kind_wrap]; rfl

theorem handlerFailure_loggable (hf : f.Loggable) : (handlerFailure p f).Loggable := by
  unfold handlerFailure
  split
  · exact hf
  · exact hf.wrap (by decide)

theorem handler_loggable {handler : Handler} {type : Datum}
    (hc : Registry.builtin.choose type = .ok handler) (h : Host) (m : Metadata)
    (baseDir source : Path) : FailsOnly Loggable (handler.create h m baseDir source) := by
  rcases Registry.choose_builtin hc with rfl | rfl
  · exact Handler.createRaw_loggable
  · exact Handler.createKeystore_loggable

/-- With the mapping at hand, a failure is one of the metadata, or the type cannot be written. -/
theorem create_eq_error {m : Metadata} (e : create .builtin h p m = .error f) :
    f.Loggable ∧ (f.kind.isMetadata = true ∨
      ∃ type, m.get? "type" = some type ∧ type.text? = none ∧ f = Metadata.tooLongFailure) := by
  unfold create at e
  split at e
  · cases e
    exact ⟨Metadata.loggable_failure _, .inl rfl⟩
  · next type ht =>
    cases hc : Registry.builtin.choose type with
    | error g =>
      rw [hc] at e
      cases e
      rcases Registry.choose_eq_error hc with ⟨hn, rfl⟩ | ⟨text, rfl⟩
      · exact ⟨loggable_ofText (by decide), .inr ⟨type, ht, hn, rfl⟩⟩
      · exact ⟨loggable_ofText (by decide), .inl rfl⟩
    | ok handler =>
      rw [hc] at e
      change (handler.create h m p.parent p).mapError (handlerFailure p) = .error f at e
      cases hg : handler.create h m p.parent p with
      | ok c => rw [hg] at e; cases e
      | error g =>
        rw [hg] at e
        cases e
        have hgl := handler_loggable hc h m p.parent p g hg
        exact ⟨handlerFailure_loggable hgl, .inl (handlerFailure_cases hgl.kind_ne)⟩

/-! ## The whole file -/

/-- The failures that loading the file at `p` ends in without saying that they are about a metadata
file. -/
inductive Escapes (h : Host) (p : Path) : Failure → Prop
  /-- The path has a NUL. -/
  | nul : hasNul (toString p) = true → Escapes h p nulFailure
  /-- The text holds a scalar whose tag gives it no value, or an escape for no character. -/
  | value {text flaw message} : h.readText p = .ok text →
      Yaml.Document.read text = .error (.value flaw message) → Escapes h p (.ofText flaw.kind message)
  /-- The text holds a mapping in place of a scalar, from which the entries that are tagged as values
  lead round in a circle, so that a text for it is looked for without end. -/
  | endless {text : List Char} : h.readText p = .ok text →
      Yaml.Document.read text = .error .endless → Escapes h p Yaml.endlessFailure
  /-- The type holds a whole number of too many digits. -/
  | type {text d v} : h.readText p = .ok text → Yaml.Document.read text = .ok d →
      d.get? "type" = some v → v.text? = none → Escapes h p Metadata.tooLongFailure

theorem load_of_text (r : Registry) (ht : h.readText p = .ok text) :
    load r h p = readDocument p text >>= fun d => mappingOf p d >>= create r h p := by
  rw [load, ht]
  rfl

/-- With a value for some key at hand, there is a mapping to build the credential from. -/
theorem load_of_get? (r : Registry) {d : Yaml.Document} {key : String} {v : Datum}
    (ht : h.readText p = .ok text) (hr : Yaml.Document.read text = .ok d)
    (hv : d.get? key = some v) : load r h p = create r h p ⟨d.get?⟩ := by
  have hd : readDocument p text = .ok d := by rw [readDocument, hr]
  rw [load_of_text r ht, hd]
  change mappingOf p d >>= create r h p = _
  rw [mappingOf_of_get? hv]
  rfl

theorem Escapes.isMetadata_kind (e : Escapes h p f) : f.kind.isMetadata = false := by
  cases e with
  | nul _ => rfl
  | value _ _ => simpa using Yaml.ValueFlaw.isMetadata_kind _
  | endless _ _ => rfl
  | type _ _ _ _ => rfl

theorem Escapes.load_eq (e : Escapes h p f) : load .builtin h p = .error f := by
  cases e with
  | nul hn =>
    simp only [load, Host.readText, Host.read, hn, if_true]
    rfl
  | @value text flaw message ht hr =>
    have hd : readDocument p text = .error (.ofText flaw.kind message) := by
      rw [readDocument, hr]
      simp [Yaml.Fault.toFailure, yamlFailure, Yaml.ValueFlaw.isYaml_kind]
    rw [load_of_text _ ht, hd]
    rfl
  | @endless text ht hr =>
    have hd : readDocument p text = .error Yaml.endlessFailure := by
      rw [readDocument, hr]
      rfl
    rw [load_of_text _ ht, hd]
    rfl
  | @type text d v ht hr hv hn =>
    have hc : create .builtin h p ⟨d.get?⟩ = .error Metadata.tooLongFailure := by
      simp only [create, hv, Registry.choose, Metadata.textOf, hn]
      rfl
    rw [load_of_get? _ ht hr hv, hc]

/-- What can go wrong on the way to a credential. -/
theorem load_eq_error (e : load .builtin h p = .error f) :
    f.Loggable ∧ (f.kind.isMetadata = true ∨ Escapes h p f) := by
  cases ht : h.readText p with
  | error g =>
    rw [load, ht] at e
    cases e
    refine ⟨readFailure_loggable (Host.readText_loggable g ht), ?_⟩
    rcases readFailure_cases ht with ⟨hn, hg⟩ | ⟨-, hk⟩
    · exact .inr (hg ▸ .nul hn)
    · exact .inl (by rw [hk]; rfl)
  | ok text =>
    rw [load_of_text _ ht] at e
    cases hd : readDocument p text with
    | error g =>
      rw [hd] at e
      cases e
      refine ⟨readDocument_loggable f hd, ?_⟩
      rcases readDocument_eq_error hd with hk | ⟨flaw, message, hr, rfl⟩ | ⟨hr, rfl⟩
      · exact .inl (by rw [hk]; rfl)
      · exact .inr (.value ht hr)
      · exact .inr (.endless ht hr)
    | ok d =>
      rw [hd] at e
      change (mappingOf p d >>= create .builtin h p) = .error f at e
      cases hm : mappingOf p d with
      | error g =>
        rw [hm] at e
        cases e
        obtain ⟨hk, hl⟩ := mappingOf_eq_error hm
        exact ⟨hl, .inl (by rw [hk]; rfl)⟩
      | ok m =>
        rw [hm] at e
        obtain rfl := mappingOf_eq_ok hm
        obtain ⟨hl, hk | ⟨v, hv, hn, rfl⟩⟩ := create_eq_error e
        · exact ⟨hl, .inl hk⟩
        · exact ⟨hl, .inr (.type ht (readDocument_eq_ok hd) hv hn)⟩

theorem load_loggable (h : Host) (p : Path) : FailsOnly Loggable (load .builtin h p) :=
  fun _ e => (load_eq_error e).1

/-- A metadata file loads, or ends in a failure of the metadata, but for the failures that escape. -/
theorem load_escapes_iff (h : Host) (p : Path) (f : Failure) :
    load .builtin h p = .error f ∧ f.kind.isMetadata = false ↔ Escapes h p f := by
  constructor
  · rintro ⟨e, hk⟩
    rcases (load_eq_error e).2 with hm | he
    · rw [hk] at hm
      cases hm
    · exact he
  · intro e
    exact ⟨e.load_eq, e.isMetadata_kind⟩

/-- A metadata file with a month that there is not. -/
def monthHost : Host where
  files := ⟨[(["keys"], .directory), (["keys", "a.yaml"], .file "type: 2001-13-01".toUTF8.toList)],
    by decide⟩
  workingDirectory := []
  home := "/home"

/-- It is the month that is reported, and nothing of the metadata. -/
theorem month_escapes : hasNul (toString (Path.ofString "keys/a.yaml")) = false ∧
    ∃ f, load .builtin monthHost (.ofString "keys/a.yaml") = .error f ∧
      f.kind.isMetadata = false ∧ f.kind = .value ∧ f.message = .text "month must be in 1..12" := by
  have ht : monthHost.readText (.ofString "keys/a.yaml") = .ok "type: 2001-13-01".toList :=
    toOption_eq_some.1 (by decide +kernel)
  have hd : Yaml.Document.read "type: 2001-13-01".toList =
      .error (.value .value "month must be in 1..12") :=
    failure?_eq_some.1 (by decide +kernel)
  exact ⟨by decide, .ofText .value "month must be in 1..12", (Escapes.value ht hd).load_eq, rfl, rfl,
    rfl⟩

end Keyring.MetadataFile
