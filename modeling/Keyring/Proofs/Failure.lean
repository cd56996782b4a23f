import Keyring.Handler.Keystore
import Keyring.Proofs.Outcome
import Keyring.Yaml.Fault
/-!
# Failures that can be logged

A load can log a failure if it does not stop the program and everything it is linked to has a text:
then its root has one, wherever the chain ends (`Loggable.rootMessage`). All failures of this library
are of that kind: those of reading files and YAML texts, of the fields of metadata, and of the
handlers.
-/

namespace Keyring

namespace Failure

/-- The failure does not stop the program, and no failure of its graph is without a text. -/
structure Loggable (f : Failure) : Prop where
  kind_ne : f.kind ≠ .fatal
  text : ∀ n ∈ f.nodes, n.message ≠ .unprintable

variable {kind : FailureClass} {text : String} {f : Failure}

@[simp] theorem kind_ofText : (ofText kind text).kind = kind := rfl

@[simp] theorem kind_wrap : (f.wrap kind text).kind = kind := by
  simp [Failure.kind, node, wrap]

@[simp] theorem kind_during : (f.during kind text).kind = kind := by
  simp [Failure.kind, node, during]

theorem text_ofText : ∀ n ∈ (ofText kind text).nodes, n.message ≠ .unprintable := by
  simp [ofText, ofMessage]

theorem loggable_ofText (hk : kind ≠ .fatal) : (ofText kind text).Loggable where
  kind_ne := hk
  text := text_ofText

/-- A failure can be logged if it adds a text to a graph of texts. -/
theorem loggable_of_nodes_eq {g : Failure} {n : Node}
    (hf : ∀ i ∈ f.nodes, i.message ≠ .unprintable) (hg : g.nodes = f.nodes ++ [n])
    (hn : n.message ≠ .unprintable) (hk : g.kind ≠ .fatal) : g.Loggable where
  kind_ne := hk
  text := by
    intro i hi
    rw [hg] at hi
    rcases List.mem_append.1 hi with hi | hi
    · exact hf i hi
    · rwa [List.mem_singleton.1 hi]

theorem Loggable.wrap (hf : f.Loggable) (hk : kind ≠ .fatal) : (f.wrap kind text).Loggable :=
  loggable_of_nodes_eq hf.text rfl (by simp) (by simpa using hk)

/-- The failure that was being dealt with may be one that stops the program. -/
theorem loggable_during (hf : ∀ n ∈ f.nodes, n.message ≠ .unprintable) (hk : kind ≠ .fatal) :
    (f.during kind text).Loggable :=
  loggable_of_nodes_eq hf rfl (by simp) (by simpa using hk)

theorem rootNode_mem (f : Failure) : f.rootNode ∈ f.nodes := by
  rw [rootNode]
  cases hr : f.nodes[f.rootIndex]? with
  | none => exact List.get_mem _ _
  | some n => exact List.mem_of_getElem? hr

/-- Whatever the chain ends in has a text. -/
theorem Loggable.rootMessage (hf : f.Loggable) : ∃ m, f.rootMessage = .ok m := by
  have hroot := hf.text _ f.rootNode_mem
  rw [Failure.rootMessage, Graph.caption]
  cases hm : f.rootNode.message with
  | text s => exact ⟨_, rfl⟩
  | unprintable => exact absurd hm hroot

end Failure

open Failure Outcome

/-! ## Files -/

theorem Refusal.loggable (r : Refusal) (p : Path) : (r.failure p).Loggable := by
  rw [failure_eq]
  exact loggable_ofText (by cases r <;> decide)

namespace Host

variable {h : Host} {p : Path} {f : Failure}

/-- Why the text of a file cannot be read. -/
theorem readText_eq_error (e : h.readText p = .error f) :
    hasNul (toString p) = true ∧ f = nulFailure ∨
    hasNul (toString p) = false ∧ f.Loggable ∧ (f.kind.isOs = true ∨ f.kind = .decoding) := by
  cases hn : hasNul (toString p) with
  | true =>
    refine .inl ⟨rfl, ?_⟩
    simp only [readText, read, hn, if_true, bind, Except.bind] at e
    exact (Except.error.inj e).symm
  | false =>
    refine .inr ⟨rfl, ?_⟩
    simp only [readText, read, hn, bind, Except.bind] at e
    cases hb : h.bytes? p with
    | error r =>
      simp only [hb] at e
      cases e
      exact ⟨r.loggable p, .inl (r.isOs_kind p)⟩
    | ok bytes =>
      simp only [hb, textOf, Bool.false_eq_true, if_false] at e
      split at e
      · cases e
      · cases e
        exact ⟨loggable_ofText (by decide), .inr rfl⟩

theorem readText_loggable : FailsOnly Loggable (h.readText p) := by
  intro f e
  rcases readText_eq_error e with ⟨-, rfl⟩ | ⟨-, hf, -⟩
  · exact loggable_ofText (by decide)
  · exact hf

theorem homeOf_loggable {component : String} : FailsOnly Loggable (h.homeOf component) := by
  have found : ∀ home : String, FailsOnly Loggable
      (if (trimHome home).toList.head? = some '~' then Except.error noHome
        else .ok (Path.ofString (trimHome home))) := by
    intro home
    split
    · exact failsOnly_error (loggable_ofText (by decide))
    · exact failsOnly_ok
  unfold homeOf
  dsimp only
  split
  · exact found _
  · split
    · exact failsOnly_error (loggable_ofText (by decide))
    · split
      · exact found _
      · exact failsOnly_error (loggable_ofText (by decide))

theorem expandHome_loggable : FailsOnly Loggable (h.expandHome p) := by
  unfold expandHome
  split
  · split
    · exact homeOf_loggable.bind fun _ _ => failsOnly_ok
    · exact failsOnly_ok
  · exact failsOnly_ok

end Host

/-! ## Faults of YAML texts -/

namespace Yaml

theorem Stage.isYaml_kind (s : Stage) : s.kind.isYaml = true := by
  cases s <;> rfl

theorem ValueFlaw.isYaml_kind (v : ValueFlaw) : v.kind.isYaml = false := by
  cases v <;> rfl

theorem ValueFlaw.isMetadata_kind (v : ValueFlaw) : v.kind.isMetadata = false := by
  cases v <;> rfl

/-- A fault is one of the YAML text, a value that cannot be built, or a text without end. -/
theorem Fault.toFailure_cases (text : List Char) (fault : Fault) :
    (fault.toFailure text).kind.isYaml = true ∨
    (∃ flaw message, fault = .value flaw message ∧
      fault.toFailure text = .ofText flaw.kind message) ∨
    fault = .endless ∧ fault.toFailure text = endlessFailure := by
  cases fault with
  | marked c =>
    left
    rw [toFailure]
    cases c.origin? with
    | none => exact c.stage.isYaml_kind
    | some origin => simpa using c.stage.isYaml_kind
  | character c position => exact .inl rfl
  | value flaw message => exact .inr (.inl ⟨flaw, message, rfl, rfl⟩)
  | endless => exact .inr (.inr ⟨rfl, rfl⟩)

theorem Fault.toFailure_loggable (text : List Char) (fault : Fault) :
    (fault.toFailure text).Loggable := by
  cases fault with
  | marked c =>
    have hk : c.stage.kind ≠ .fatal := by cases c.stage <;> decide
    rw [toFailure]
    cases c.origin? with
    | none => exact loggable_ofText hk
    | some origin => exact loggable_during text_ofText hk
  | character c position => exact loggable_ofText (by decide)
  | value flaw message => exact loggable_ofText (by cases flaw <;> decide)
  | endless => exact loggable_ofText (by decide)

end Yaml

/-! ## Fields -/

namespace Metadata

variable {m : Metadata} {key : String}

theorem loggable_failure (text : String) : (failure text).Loggable :=
  loggable_ofText (by decide)

theorem require_loggable : FailsOnly Loggable (m.require key) := by
  unfold require
  split
  · exact failsOnly_ok
  · exact failsOnly_error (loggable_failure _)

theorem decodeHex_loggable {length : Int} {v : Datum} :
    FailsOnly Loggable (decodeHex key length v) := by
  unfold decodeHex
  split
  · split
    · exact failsOnly_error ((loggable_ofText (by decide)).wrap (by decide))
    · split
      · exact failsOnly_ok
      · exact failsOnly_error (loggable_failure _)
  · exact failsOnly_error (loggable_failure _)

theorem textOf_loggable {v : Datum} : FailsOnly Loggable (textOf v) := by
  unfold textOf
  split
  · exact failsOnly_ok
  · exact failsOnly_error (loggable_ofText (by decide))

theorem resolve_loggable {h : Host} {p : Path} {v : Datum} : FailsOnly Loggable (resolve h p v) :=
  textOf_loggable.bind fun _ _ => Host.expandHome_loggable.bind fun _ _ => failsOnly_ok

end Metadata

/-! ## Handlers -/

namespace Handler

variable {h : Host} {m : Metadata} {p source : Path}

theorem createRaw_loggable : FailsOnly Loggable (createRaw m source) :=
  Metadata.require_loggable.bind fun _ _ => Metadata.decodeHex_loggable.bind fun _ _ =>
    Metadata.require_loggable.bind fun _ _ => Metadata.decodeHex_loggable.bind fun _ _ => failsOnly_ok

theorem readJson_loggable : FailsOnly Loggable (readJson h p) := by
  refine Host.readText_loggable.bind fun text _ => ?_
  split
  · exact failsOnly_ok
  · next flaw _ =>
    refine failsOnly_error (loggable_ofText ?_)
    cases flaw <;> simp

theorem keystoreFailure_loggable {f : Failure} (hf : f.Loggable) :
    (keystoreFailure p f).Loggable := by
  unfold keystoreFailure
  split
  · exact hf.wrap (by decide)
  · split
    · exact hf.wrap (by decide)
    · exact hf

theorem keystorePublicKey_loggable {v : Json.Value} : FailsOnly Loggable (keystorePublicKey p v) := by
  unfold keystorePublicKey
  split
  · exact failsOnly_error (Metadata.loggable_failure _)
  · split
    · exact failsOnly_error (Metadata.loggable_failure _)
    · exact Metadata.require_loggable.bind fun _ _ => Metadata.decodeHex_loggable

theorem readPassword_loggable : FailsOnly Loggable (readPassword h p) := by
  have wrapped : ∀ f : Failure, f.Loggable → (passwordFailure p f).Loggable := by
    intro f hf
    unfold passwordFailure
    split
    · exact hf.wrap (by decide)
    · exact hf
  exact (Host.readText_loggable.mapError wrapped).bind fun _ _ => failsOnly_ok

theorem createKeystore_loggable : FailsOnly Loggable (createKeystore h m p source) :=
  Metadata.require_loggable.bind fun _ _ => Metadata.resolve_loggable.bind fun _ _ =>
    Metadata.require_loggable.bind fun _ _ => Metadata.resolve_loggable.bind fun _ _ =>
      (readJson_loggable.mapError fun _ => keystoreFailure_loggable).bind fun _ _ =>
        keystorePublicKey_loggable.bind fun _ _ => readPassword_loggable.bind fun _ _ => failsOnly_ok

end Handler

end Keyring
