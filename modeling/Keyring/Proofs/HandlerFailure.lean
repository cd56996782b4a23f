import Keyring.Proofs.Keystore
import Keyring.Proofs.RelativePath
/-!
# What handlers fail with

Key pairs in the metadata fail with failures of the metadata only, and so do keystores, but for two steps
whose failures are not wrapped: finding the paths, and reading the password once the file system has let
it be read. `Escapes` tells when one of those is reached (`create_escapes_iff`).
-/

namespace Keyring

open Failure Outcome

variable {h : Host} {m : Metadata} {baseDir source p q : Path} {f : Failure} {key : String} {v : Datum}

/-! ## Fields -/

namespace Metadata

theorem require_kind : FailsOnly (·.kind = .metadata) (m.require key) := by
  intro f e
  obtain ⟨-, rfl⟩ := require_eq_error.1 e
  rfl

theorem decodeHex_kind {length : Int} : FailsOnly (·.kind = .metadata) (decodeHex key length v) := by
  unfold decodeHex
  split
  · split
    · exact failsOnly_error kind_wrap
    · split
      · exact failsOnly_ok
      · exact failsOnly_error rfl
  · exact failsOnly_error rfl

theorem Unresolved.kind_ne (hv : Unresolved h v f) : f.kind ≠ .metadata := by
  cases hv with
  | digits _ => exact nofun
  | home _ _ _ hunknown => cases hunknown <;> exact nofun

/-- The lack of a value is a failure of the metadata; that a value names no path is not. -/
theorem path_escapes_iff : m.require key >>= resolve h baseDir = .error f ∧ f.kind ≠ .metadata ↔
    ∃ v, m.Has key v ∧ Unresolved h v f := by
  rw [unnamed_iff]
  constructor
  · rintro ⟨hun, hkind⟩
    cases hun with
    | missing _ => exact absurd rfl hkind
    | unresolved hv e => exact ⟨_, hv, resolve_eq_error.1 e⟩
  · rintro ⟨v, hv, hunresolved⟩
    exact ⟨.unresolved hv (resolve_eq_error.2 hunresolved), hunresolved.kind_ne⟩

end Metadata

/-! ## Files -/

namespace Host

/-- Why there is no text at a path, but for what the file system has against it. -/
inductive NoText (h : Host) (p : Path) : Failure → Prop
  | nul : hasNul (toString p) = true → NoText h p nulFailure
  | decoding {bytes flaw} : h.read p = .ok bytes → Text.Utf8.decode bytes = .error flaw →
    NoText h p (decodingFailure flaw)

theorem noText_iff : h.readText p = .error f ∧ f.kind.isOs = false ↔ NoText h p f := by
  constructor
  · rintro ⟨e, hkind⟩
    rcases bind_eq_error.1 e with e | ⟨bytes, hbytes, e⟩
    · unfold read at e
      split at e
      · next hnul => exact Except.error.inj e ▸ .nul hnul
      · split at e
        · cases e
        · next r _ =>
          rw [← Except.error.inj e, r.isOs_kind p] at hkind
          cases hkind
    · unfold textOf at e
      split at e
      · cases e
      · next flaw hflaw => exact Except.error.inj e ▸ .decoding hbytes hflaw
  · rintro (hnul | ⟨hbytes, hflaw⟩)
    · refine ⟨?_, rfl⟩
      rw [readText, read, if_pos hnul]
      rfl
    · refine ⟨?_, rfl⟩
      rw [readText, hbytes]
      change textOf _ = _
      rw [textOf, hflaw]

theorem NoText.kind_ne (hp : NoText h p f) : f.kind ≠ .metadata := by
  cases hp <;> exact nofun

end Host

/-! ## Handlers -/

namespace Handler

theorem createRaw_kind : FailsOnly (·.kind = .metadata) (createRaw m source) :=
  Metadata.require_kind.bind fun _ _ => Metadata.decodeHex_kind.bind fun _ _ =>
    Metadata.require_kind.bind fun _ _ => Metadata.decodeHex_kind.bind fun _ _ => failsOnly_ok

/-- The file is a keystore with a public key. -/
def HoldsPublicKey (h : Host) (p : Path) : Prop :=
  ∃ members crypto pubkey key, HoldsJson h p (.object members) ∧
    members.lookup "crypto" = some (.object crypto) ∧ members.lookup "pubkey" = some pubkey ∧
    Metadata.decodeHex "pubkey" 48 pubkey.toDatum = .ok key

theorem holdsPublicKey_iff : HoldsPublicKey h p ↔
    ∃ v key, readJson h p = .ok v ∧ keystorePublicKey p v = .ok key := by
  simp only [readJson_eq_ok, keystorePublicKey_eq_ok, HoldsPublicKey]
  constructor
  · rintro ⟨members, crypto, pubkey, key, hholds, hcrypto, hpubkey, hkey⟩
    exact ⟨_, key, hholds, members, crypto, pubkey, rfl, hcrypto, hpubkey, hkey⟩
  · rintro ⟨v, key, hholds, members, crypto, pubkey, rfl, hcrypto, hpubkey, hkey⟩
    exact ⟨members, crypto, pubkey, key, hholds, hcrypto, hpubkey, hkey⟩

theorem keystore_kind :
    FailsOnly (·.kind = .metadata) ((readJson h p).mapError (keystoreFailure p)) := by
  intro g hg
  obtain ⟨f, hf, rfl⟩ := mapError_eq_error.1 hg
  rw [readJson_eq_bind] at hf
  rcases bind_eq_error.1 hf with e | ⟨text, -, e⟩
  · cases hkind : f.kind.isOs with
    | true => rw [keystoreFailure_of_isOs hkind, kind_wrap]
    | false => rw [keystoreFailure_of_isValue hkind (isValue_of_readText e hkind), kind_wrap]
  · unfold jsonOf at e
    split at e
    · cases e
    · next flaw _ => rw [← Except.error.inj e, keystoreFailure_jsonFailure, kind_wrap]

theorem keystorePublicKey_kind {v : Json.Value} :
    FailsOnly (·.kind = .metadata) (keystorePublicKey p v) := by
  unfold keystorePublicKey
  split
  · exact failsOnly_error rfl
  · split
    · exact failsOnly_error rfl
    · exact Metadata.require_kind.bind fun _ _ => Metadata.decodeHex_kind

/-- Of a password the failures of the file system are wrapped, and no others. -/
theorem readPassword_escapes_iff :
    readPassword h q = .error f ∧ f.kind ≠ .metadata ↔ h.NoText q f := by
  rw [readPassword_eq_error]
  constructor
  · rintro ⟨⟨g, e, rfl⟩, hkind⟩
    cases hos : g.kind.isOs with
    | true =>
      rw [passwordFailure_of_isOs hos, kind_wrap] at hkind
      exact absurd rfl hkind
    | false =>
      rw [passwordFailure_of_not_isOs hos]
      exact Host.noText_iff.1 ⟨e, hos⟩
  · intro hno
    obtain ⟨e, hos⟩ := Host.noText_iff.2 hno
    exact ⟨⟨f, e, passwordFailure_of_not_isOs hos⟩, hno.kind_ne⟩

/-- What a keystore fails with that is not wrapped: a path that the metadata do not name, or a password
that is no text, once all else is found. -/
inductive Escapes (h : Host) (m : Metadata) (baseDir : Path) : Failure → Prop
  | keystoreFile {v : Datum} {f : Failure} : m.Has "keystoreFile" v → Metadata.Unresolved h v f →
    Escapes h m baseDir f
  | passwordFile {p : Path} {v : Datum} {f : Failure} : m.Names h baseDir "keystoreFile" p →
    m.Has "keystorePasswordFile" v → Metadata.Unresolved h v f → Escapes h m baseDir f
  | password {p q : Path} {f : Failure} : m.Names h baseDir "keystoreFile" p → HoldsPublicKey h p →
    m.Names h baseDir "keystorePasswordFile" q → h.NoText q f → Escapes h m baseDir f

/-- With all else at hand a keystore fails as reading its password does. -/
theorem createKeystore_of_holdsPublicKey (hp : m.Names h baseDir "keystoreFile" p)
    (hkey : HoldsPublicKey h p) (hq : m.Names h baseDir "keystorePasswordFile" q)
    (e : readPassword h q = .error f) : createKeystore h m baseDir source = .error f := by
  obtain ⟨v, key, hv, hkey⟩ := holdsPublicKey_iff.1 hkey
  rw [createKeystore_eq_bind]
  refine bind_eq_error.2 (.inr ⟨p, Metadata.names_iff.2 hp, ?_⟩)
  refine bind_eq_error.2 (.inr ⟨q, Metadata.names_iff.2 hq, ?_⟩)
  refine bind_eq_error.2 (.inr ⟨v, mapError_eq_ok.2 hv, ?_⟩)
  exact bind_eq_error.2 (.inr ⟨key, hkey, bind_eq_error.2 (.inl e)⟩)

theorem createKeystore_escapes_iff :
    createKeystore h m baseDir source = .error f ∧ f.kind ≠ .metadata ↔ Escapes h m baseDir f := by
  constructor
  · rintro ⟨e, hkind⟩
    rw [createKeystore_eq_bind] at e
    rcases bind_eq_error.1 e with e | ⟨p, hp, e⟩
    · obtain ⟨v, hv, hunresolved⟩ := Metadata.path_escapes_iff.1 ⟨e, hkind⟩
      exact .keystoreFile hv hunresolved
    rcases bind_eq_error.1 e with e | ⟨q, hq, e⟩
    · obtain ⟨v, hv, hunresolved⟩ := Metadata.path_escapes_iff.1 ⟨e, hkind⟩
      exact .passwordFile (Metadata.names_iff.1 hp) hv hunresolved
    rcases bind_eq_error.1 e with e | ⟨v, hv, e⟩
    · exact absurd (keystore_kind f e) hkind
    rcases bind_eq_error.1 e with e | ⟨key, hkey, e⟩
    · exact absurd (keystorePublicKey_kind f e) hkind
    rcases bind_eq_error.1 e with e | ⟨password, -, e⟩
    · exact .password (Metadata.names_iff.1 hp) (holdsPublicKey_iff.2 ⟨v, key, mapError_eq_ok.1 hv, hkey⟩)
        (Metadata.names_iff.1 hq) (readPassword_escapes_iff.1 ⟨e, hkind⟩)
    · cases e
  · intro hescapes
    cases hescapes with
    | keystoreFile hv hunresolved =>
      obtain ⟨e, hkind⟩ := Metadata.path_escapes_iff.2 ⟨_, hv, hunresolved⟩
      refine ⟨?_, hkind⟩
      rw [createKeystore_eq_bind]
      exact bind_eq_error.2 (.inl e)
    | passwordFile hp hv hunresolved =>
      obtain ⟨e, hkind⟩ := Metadata.path_escapes_iff.2 ⟨_, hv, hunresolved⟩
      refine ⟨?_, hkind⟩
      rw [createKeystore_eq_bind]
      exact bind_eq_error.2 (.inr ⟨_, Metadata.names_iff.2 hp, bind_eq_error.2 (.inl e)⟩)
    | password hp hkey hq hno =>
      obtain ⟨e, hkind⟩ := readPassword_escapes_iff.2 hno
      exact ⟨createKeystore_of_holdsPublicKey hp hkey hq e, hkind⟩

/-- Key pairs fail with failures of the metadata only, and keystores too unless `Escapes` tells otherwise.
Where the file system does not let a password be read, that is what is said. -/
theorem create_escapes_iff (h : Host) (m : Metadata) (baseDir source : Path) :
    (∀ f, createRaw m source = .error f → f.kind = .metadata) ∧
    (∀ f, createKeystore h m baseDir source = .error f ∧ f.kind ≠ .metadata ↔ Escapes h m baseDir f) ∧
    ∀ p q f, m.Names h baseDir "keystoreFile" p → HoldsPublicKey h p →
      m.Names h baseDir "keystorePasswordFile" q → h.readText q = .error f → f.kind.isOs = true →
      createKeystore h m baseDir source =
        .error (f.wrap .metadata ("Unable to read keystore password file " ++ toString q)) :=
  ⟨createRaw_kind, fun _ => createKeystore_escapes_iff, fun _ _ f hp hkey hq e hos =>
    createKeystore_of_holdsPublicKey hp hkey hq
      (readPassword_eq_error.2 ⟨f, e, passwordFailure_of_isOs hos⟩)⟩

/-- The host without the password. -/
def barredHost : Host :=
  { keystoreHost with files := keystoreHost.files.erase ["pw"] }

/-- The host with a password that is no text. -/
def garbledHost : Host :=
  keystoreHost.withFile ["pw"] [0xFF]

theorem names_keystoreFile (h : Host) :
    (keystoreMetadata []).Names h (.ofString "keys") "keystoreFile" (.ofString "/k.json") :=
  Metadata.names_iff.1 rfl

theorem names_passwordFile (h : Host) :
    (keystoreMetadata []).Names h (.ofString "keys") "keystorePasswordFile" (.ofString "/pw") :=
  Metadata.names_iff.1 rfl

theorem readText_keystoreHost : keystoreHost.readText (.ofString "/k.json") = .ok (keystoreText []) :=
  toOption_eq_some.1 (by decide +kernel)

theorem holdsPublicKey_of_read
    (hread : h.read (.ofString "/k.json") = keystoreHost.read (.ofString "/k.json")) :
    HoldsPublicKey h (.ofString "/k.json") := by
  have ht : h.readText (.ofString "/k.json") = .ok (keystoreText []) := by
    rw [Host.readText, hread]
    exact readText_keystoreHost
  exact ⟨keystoreMembers [], [], .str (String.ofList (List.replicate 96 'B')), List.replicate 48 0xBB,
    ⟨keystoreText [], ht, read_keystoreText (.inl rfl)⟩, rfl, rfl,
    toOption_eq_some.1 (by decide +kernel)⟩

theorem create_escapes_barredHost :
    (∀ f, createRaw (keystoreMetadata []) (.ofString "keys/a.yaml") = .error f → f.kind = .metadata) ∧
    ∃ f, barredHost.readText (.ofString "/pw") = .error f ∧ f.kind.isOs = true ∧
      createKeystore barredHost (keystoreMetadata []) (.ofString "keys") (.ofString "keys/a.yaml") =
        .error (f.wrap .metadata "Unable to read keystore password file /pw") := by
  obtain ⟨hraw, -, hpassword⟩ := create_escapes_iff barredHost (keystoreMetadata []) (.ofString "keys")
    (.ofString "keys/a.yaml")
  have hp := names_keystoreFile barredHost
  have hq := names_passwordFile barredHost
  have hkey := holdsPublicKey_of_read (h := barredHost) rfl
  have e : barredHost.readText (.ofString "/pw") = .error (Refusal.noEntry.failure (.ofString "/pw")) :=
    rfl
  exact ⟨hraw, _, e, rfl, hpassword _ _ _ hp hkey hq e rfl⟩

/-- A password that is no text is not reported as a failure of the metadata. -/
theorem password_escapes :
    ∃ f, createKeystore garbledHost (keystoreMetadata []) (.ofString "keys") (.ofString "keys/a.yaml") =
        .error f ∧ f.kind.isMetadata = false ∧ f.kind = .decoding ∧
      f.message = .text "'utf-8' codec can't decode byte 0xff in position 0: invalid start byte" := by
  have hp := names_keystoreFile garbledHost
  have hq := names_passwordFile garbledHost
  have hkey := holdsPublicKey_of_read (h := garbledHost) rfl
  have hread : garbledHost.read (.ofString "/pw") = .ok [0xFF] := toOption_eq_some.1 (by decide +kernel)
  have hescapes := Escapes.password hp hkey hq (.decoding hread rfl)
  exact ⟨_, (createKeystore_escapes_iff.2 hescapes).1, rfl, rfl, by decide +kernel⟩

end Handler

end Keyring
