import Keyring.Proofs.Credential
import Keyring.Proofs.Json
import Keyring.Proofs.LineEnds
import Keyring.Proofs.MetadataFile.ReadsSame
import Keyring.Proofs.Secrets
/-!
# Keystores

`Describes` says what the metadata and the files hold where they describe a credential, and `Fails` what
each step on the way to it fails with. A keystore gives the credential that is described, or the failure
of the first step that fails, and nothing else in the metadata or in the keystore has a say in it
(`createKeystore_exact`).
-/

namespace Keyring

open Outcome

/-! ## Fields -/

namespace Metadata

/-- The mapping has a value for the key, which is neither null nor the empty text. -/
def Has (m : Metadata) (key : String) (v : Datum) : Prop :=
  m.get? key = some v ∧ v ≠ .null ∧ v ≠ .str ""

/-- The failure of a key without a value. -/
def missing (key : String) : Failure :=
  failure ("Missing required metadata field '" ++ key ++ "'")

/-- The mapping has a path for the key. -/
def Names (m : Metadata) (h : Host) (baseDir : Path) (key : String) (p : Path) : Prop :=
  ∃ v, m.Has key v ∧ resolve h baseDir v = .ok p

/-- Why the mapping has no path for the key. -/
inductive Unnamed (m : Metadata) (h : Host) (baseDir : Path) (key : String) : Failure → Prop
  | missing : (∀ v, ¬ m.Has key v) → Unnamed m h baseDir key (missing key)
  | unresolved {v f} : m.Has key v → resolve h baseDir v = .error f → Unnamed m h baseDir key f

variable {m m' : Metadata} {key : String} {v : Datum} {f : Failure} {h : Host} {baseDir p q : Path}

theorem isMissing_eq_false_iff : v.isMissing = false ↔ v ≠ .null ∧ v ≠ .str "" := by
  cases v <;> simp [Datum.isMissing]

theorem filter_eq_some_iff : (m.get? key).filter (!·.isMissing) = some v ↔ m.Has key v := by
  rw [Option.filter_eq_some_iff, Bool.not_eq_true', isMissing_eq_false_iff, Has]

theorem require_eq_ok : m.require key = .ok v ↔ m.Has key v := by
  rw [← filter_eq_some_iff, require]
  cases (m.get? key).filter (!·.isMissing) <;> simp

theorem require_eq_error : m.require key = .error f ↔ (∀ v, ¬ m.Has key v) ∧ missing key = f := by
  simp only [← filter_eq_some_iff, require]
  cases (m.get? key).filter (!·.isMissing) <;> simp [missing]

theorem names_iff : m.require key >>= resolve h baseDir = .ok p ↔ m.Names h baseDir key p := by
  simp only [bind_eq_ok, require_eq_ok, Names]

theorem Names.unique (hp : m.Names h baseDir key p) (hq : m.Names h baseDir key q) : p = q :=
  Except.ok.inj ((names_iff.2 hp).symm.trans (names_iff.2 hq))

theorem unnamed_iff : m.require key >>= resolve h baseDir = .error f ↔ m.Unnamed h baseDir key f := by
  simp only [bind_eq_error, require_eq_error, require_eq_ok]
  constructor
  · rintro (⟨hnone, rfl⟩ | ⟨v, hv, e⟩)
    · exact .missing hnone
    · exact .unresolved hv e
  · rintro (hnone | ⟨hv, e⟩)
    · exact .inl ⟨hnone, rfl⟩
    · exact .inr ⟨_, hv, e⟩

/-- Only the value of the key counts. -/
theorem require_congr (hm : m'.get? key = m.get? key) : m'.require key = m.require key := by
  rw [require, require, hm]

end Metadata

namespace Handler

open Metadata (failure missing)

/-! ## What is described -/

/-- The file is a JSON text of the value. -/
def HoldsJson (h : Host) (p : Path) (v : Json.Value) : Prop :=
  ∃ text, h.readText p = .ok text ∧ Json.read text = .ok v

/-- The value of a JSON text. -/
def jsonOf (text : List Char) : Except Failure Json.Value :=
  match Json.read text with
  | .ok v => .ok v
  | .error flaw => .error (jsonFailure text flaw)

/-- What the metadata and the files hold where they describe a credential. -/
inductive Describes (h : Host) (m : Metadata) (baseDir source : Path) : Credential → Prop
  | intro {keystoreFile passwordFile members crypto pubkey key password n} :
      m.Names h baseDir "keystoreFile" keystoreFile →
      m.Names h baseDir "keystorePasswordFile" passwordFile →
      HoldsJson h keystoreFile (.object members) →
      members.lookup "crypto" = some (.object crypto) →
      members.lookup "pubkey" = some pubkey →
      Metadata.decodeHex "pubkey" 48 pubkey.toDatum = .ok key →
      h.readText passwordFile = .ok (password ++ List.replicate n '\n') →
      password.getLast? ≠ some '\n' →
      Describes h m baseDir source {
        identifier := "0x" ++ Hex.encode key
        keyType := "file-keystore"
        source? := some source
        secret? := none
        keystoreFile? := some keystoreFile
        keystorePassword? := some (String.ofList password) }

/-! ## What fails -/

/-- The steps to the credential of a keystore. -/
inductive KeystoreStep where
  /-- Finds the path of the keystore. -/
  | keystoreFile
  /-- Finds the path of the password. -/
  | passwordFile
  /-- Reads the text of the keystore. -/
  | text
  | json
  | object
  | crypto
  | publicKey
  /-- Reads the password. -/
  | password

/-- The order of the steps. -/
def keystoreSteps : List KeystoreStep :=
  [.keystoreFile, .passwordFile, .text, .json, .object, .crypto, .publicKey, .password]

/-- What a step fails with once those before it have gone well. -/
inductive Fails (h : Host) (m : Metadata) (baseDir : Path) : KeystoreStep → Failure → Prop
  | keystoreFile {f} : m.Unnamed h baseDir "keystoreFile" f → Fails h m baseDir .keystoreFile f
  | passwordFile {f} : m.Unnamed h baseDir "keystorePasswordFile" f →
      Fails h m baseDir .passwordFile f
  /-- The file system refuses to read the keystore. -/
  | unreadable {p f} : m.Names h baseDir "keystoreFile" p → h.readText p = .error f →
      f.kind.isOs = true →
      Fails h m baseDir .text (f.wrap .metadata ("Unable to read keystore file " ++ toString p))
  /-- The keystore is not UTF-8, or its path has a NUL. -/
  | noText {p f} : m.Names h baseDir "keystoreFile" p → h.readText p = .error f →
      f.kind.isOs = false →
      Fails h m baseDir .text
        (f.wrap .metadata ("Keystore file " ++ toString p ++ " is not valid JSON"))
  | noJson {p text flaw} : m.Names h baseDir "keystoreFile" p → h.readText p = .ok text →
      Json.read text = .error flaw →
      Fails h m baseDir .json ((jsonFailure text flaw).wrap .metadata
        ("Keystore file " ++ toString p ++ " is not valid JSON"))
  | noObject {p v} : m.Names h baseDir "keystoreFile" p → HoldsJson h p v →
      (∀ members, v ≠ .object members) →
      Fails h m baseDir .object (failure ("Keystore file " ++ toString p ++ " is not a JSON object"))
  | noCrypto {p members} : m.Names h baseDir "keystoreFile" p → HoldsJson h p (.object members) →
      (∀ inner, members.lookup "crypto" ≠ some (.object inner)) →
      Fails h m baseDir .crypto (failure ("Keystore file " ++ toString p ++ " has no crypto section"))
  | noPublicKey {p members} : m.Names h baseDir "keystoreFile" p → HoldsJson h p (.object members) →
      (∀ v, ¬ (Metadata.ofMembers members).Has "pubkey" v) →
      Fails h m baseDir .publicKey (missing "pubkey")
  | badPublicKey {p members v f} : m.Names h baseDir "keystoreFile" p →
      HoldsJson h p (.object members) → (Metadata.ofMembers members).Has "pubkey" v →
      Metadata.decodeHex "pubkey" 48 v = .error f → Fails h m baseDir .publicKey f
  /-- The file system refuses to read the password. -/
  | passwordUnreadable {p f} : m.Names h baseDir "keystorePasswordFile" p →
      h.readText p = .error f → f.kind.isOs = true →
      Fails h m baseDir .password
        (f.wrap .metadata ("Unable to read keystore password file " ++ toString p))
  /-- The password is not UTF-8, or its path has a NUL: that is not wrapped. -/
  | passwordNoText {p f} : m.Names h baseDir "keystorePasswordFile" p →
      h.readText p = .error f → f.kind.isOs = false → Fails h m baseDir .password f

/-! ## Step by step -/

variable {h h' : Host} {m m' : Metadata} {baseDir source p q : Path} {v : Json.Value} {f g : Failure}
  {text : List Char} {members : List (String × Json.Value)}

theorem readJson_eq_bind (h : Host) (p : Path) : readJson h p = h.readText p >>= jsonOf := rfl

theorem readJson_eq_ok : readJson h p = .ok v ↔ HoldsJson h p v := by
  simp only [readJson_eq_bind, bind_eq_ok, HoldsJson, jsonOf]
  refine exists_congr fun text => and_congr_right fun _ => ?_
  cases Json.read text <;> simp

theorem HoldsJson.unique {w : Json.Value} (hv : HoldsJson h p v) (hw : HoldsJson h p w) : v = w :=
  Except.ok.inj ((readJson_eq_ok.2 hv).symm.trans (readJson_eq_ok.2 hw))

theorem any_isObject_iff {o : Option Json.Value} :
    o.any isObject = true ↔ ∃ inner, o = some (.object inner) := by
  cases o with
  | none => simp
  | some v => cases v <;> simp [isObject, Json.Value.members?]

theorem members?_eq_some : v.members? = some members ↔ v = .object members := by
  cases v <;> simp [Json.Value.members?]

theorem isValue_of_readText (e : h.readText p = .error f) (hf : f.kind.isOs = false) :
    f.kind.isValue = true := by
  rcases Host.readText_eq_error e with ⟨-, rfl⟩ | ⟨-, -, hk | hk⟩
  · rfl
  · rw [hf] at hk
    cases hk
  · rw [hk]
    rfl

theorem keystoreFailure_of_isOs (hf : f.kind.isOs = true) :
    keystoreFailure p f = f.wrap .metadata ("Unable to read keystore file " ++ toString p) := by
  rw [keystoreFailure, if_pos hf]

theorem keystoreFailure_of_isValue (hf : f.kind.isOs = false) (hv : f.kind.isValue = true) :
    keystoreFailure p f =
      f.wrap .metadata ("Keystore file " ++ toString p ++ " is not valid JSON") := by
  rw [keystoreFailure, if_neg (by simp [hf]), if_pos hv]

theorem fails_text_iff (hp : m.Names h baseDir "keystoreFile" p) :
    (h.readText p).mapError (keystoreFailure p) = .error g ↔ Fails h m baseDir .text g := by
  rw [mapError_eq_error]
  constructor
  · rintro ⟨f, e, rfl⟩
    cases hf : f.kind.isOs with
    | true =>
      rw [keystoreFailure_of_isOs hf]
      exact .unreadable hp e hf
    | false =>
      rw [keystoreFailure_of_isValue hf (isValue_of_readText e hf)]
      exact .noText hp e hf
  · intro hfails
    cases hfails with
    | unreadable hq e hf =>
      obtain rfl := hp.unique hq
      exact ⟨_, e, keystoreFailure_of_isOs hf⟩
    | noText hq e hf =>
      obtain rfl := hp.unique hq
      exact ⟨_, e, keystoreFailure_of_isValue hf (isValue_of_readText e hf)⟩

/-- Whatever a text has against being JSON is said of the keystore. -/
theorem keystoreFailure_jsonFailure (text : List Char) (flaw : Json.Flaw) :
    keystoreFailure p (jsonFailure text flaw) = (jsonFailure text flaw).wrap .metadata
      ("Keystore file " ++ toString p ++ " is not valid JSON") := by
  refine keystoreFailure_of_isValue ?_ ?_ <;> cases flaw <;> rfl

theorem fails_json_iff (hp : m.Names h baseDir "keystoreFile" p) (ht : h.readText p = .ok text) :
    (jsonOf text).mapError (keystoreFailure p) = .error g ↔ Fails h m baseDir .json g := by
  rw [mapError_eq_error]
  constructor
  · rintro ⟨f, e, rfl⟩
    unfold jsonOf at e
    split at e
    · cases e
    · next flaw hflaw =>
      cases e
      rw [keystoreFailure_jsonFailure]
      exact .noJson hp ht hflaw
  · intro hfails
    cases hfails with
    | noJson hq ht' hflaw =>
      obtain rfl := hp.unique hq
      obtain rfl := Except.ok.inj (ht.symm.trans ht')
      exact ⟨_, by rw [jsonOf, hflaw], keystoreFailure_jsonFailure text _⟩

/-- The text of a keystore is read, and then its value. -/
theorem readJson_eq_error (hp : m.Names h baseDir "keystoreFile" p) :
    (readJson h p).mapError (keystoreFailure p) = .error g ↔
      FirstFailure (Fails h m baseDir) [.text, .json] g := by
  rw [readJson_eq_bind, mapError_bind]
  refine firstFailure_bind [KeystoreStep.text] [.json] (fun g => ?_) fun text ht => ?_
  · rw [firstFailure_singleton, fails_text_iff hp]
  · rw [firstFailure_singleton, fails_json_iff hp (mapError_eq_ok.1 ht)]

theorem fails_object_iff (hp : m.Names h baseDir "keystoreFile" p) (hv : HoldsJson h p v) :
    Fails h m baseDir .object g ↔ v.members? = none ∧
      failure ("Keystore file " ++ toString p ++ " is not a JSON object") = g := by
  simp only [Option.eq_none_iff_forall_ne_some, ne_eq, members?_eq_some]
  constructor
  · intro hfails
    cases hfails with
    | noObject hq hw hno =>
      obtain rfl := hp.unique hq
      obtain rfl := hv.unique hw
      exact ⟨hno, rfl⟩
  · rintro ⟨hno, rfl⟩
    exact .noObject hp hv hno

theorem fails_crypto_iff (hp : m.Names h baseDir "keystoreFile" p)
    (hv : HoldsJson h p (.object members)) : Fails h m baseDir .crypto g ↔
      (members.lookup "crypto").any isObject = false ∧
        failure ("Keystore file " ++ toString p ++ " has no crypto section") = g := by
  rw [← Bool.not_eq_true, any_isObject_iff, not_exists]
  constructor
  · intro hfails
    cases hfails with
    | noCrypto hq hw hno =>
      obtain rfl := hp.unique hq
      cases hv.unique hw
      exact ⟨hno, rfl⟩
  · rintro ⟨hno, rfl⟩
    exact .noCrypto hp hv hno

theorem fails_publicKey_iff (hp : m.Names h baseDir "keystoreFile" p)
    (hv : HoldsJson h p (.object members)) :
    (Metadata.ofMembers members).require "pubkey" >>= Metadata.decodeHex "pubkey" publicLength =
      .error g ↔ Fails h m baseDir .publicKey g := by
  simp only [bind_eq_error, Metadata.require_eq_error, Metadata.require_eq_ok]
  constructor
  · rintro (⟨hnone, rfl⟩ | ⟨w, hhas, e⟩)
    · exact .noPublicKey hp hv hnone
    · exact .badPublicKey hp hv hhas e
  · intro hfails
    cases hfails with
    | noPublicKey hq hw hnone =>
      obtain rfl := hp.unique hq
      cases hv.unique hw
      exact .inl ⟨hnone, rfl⟩
    | badPublicKey hq hw hhas e =>
      obtain rfl := hp.unique hq
      cases hv.unique hw
      exact .inr ⟨_, hhas, e⟩

/-- The public key of a value is that of an object with a section for the secret. -/
theorem keystorePublicKey_eq_error (hp : m.Names h baseDir "keystoreFile" p) (hv : HoldsJson h p v) :
    keystorePublicKey p v = .error g ↔
      FirstFailure (Fails h m baseDir) [.object, .crypto, .publicKey] g := by
  have hobject (g : Failure) := fails_object_iff (g := g) hp hv
  rw [firstFailure_cons, firstFailure_cons, firstFailure_singleton]
  simp only [hobject]
  unfold keystorePublicKey
  cases hm : v.members? with
  | none => simp [throw, throwThe, MonadExceptOf.throw]
  | some members =>
    obtain rfl := members?_eq_some.1 hm
    rw [Json.Value.get?_object]
    have hcrypto (g : Failure) := fails_crypto_iff (g := g) hp hv
    rw [← fails_publicKey_iff hp hv]
    simp only [hcrypto]
    cases hc : (members.lookup "crypto").any isObject with
    | false => simp [throw, throwThe, MonadExceptOf.throw, bind, Except.bind]
    | true => simp

theorem readPassword_eq_error : readPassword h q = .error g ↔
    ∃ f, h.readText q = .error f ∧ passwordFailure q f = g := by
  simp [readPassword, bind_eq_error, mapError_eq_error, pure, Except.pure]

theorem passwordFailure_of_isOs (hf : f.kind.isOs = true) : passwordFailure q f =
    f.wrap .metadata ("Unable to read keystore password file " ++ toString q) := by
  rw [passwordFailure, if_pos hf]

theorem passwordFailure_of_not_isOs (hf : f.kind.isOs = false) : passwordFailure q f = f := by
  rw [passwordFailure, if_neg (by simp [hf])]

theorem fails_password_iff (hp : m.Names h baseDir "keystorePasswordFile" p) :
    readPassword h p = .error g ↔ Fails h m baseDir .password g := by
  rw [readPassword_eq_error]
  constructor
  · rintro ⟨f, e, rfl⟩
    cases hf : f.kind.isOs with
    | true =>
      rw [passwordFailure_of_isOs hf]
      exact .passwordUnreadable hp e hf
    | false =>
      rw [passwordFailure_of_not_isOs hf]
      exact .passwordNoText hp e hf
  · intro hfails
    cases hfails with
    | passwordUnreadable hq e hf =>
      obtain rfl := hp.unique hq
      exact ⟨_, e, passwordFailure_of_isOs hf⟩
    | passwordNoText hq e hf =>
      obtain rfl := hp.unique hq
      exact ⟨_, e, passwordFailure_of_not_isOs hf⟩

theorem fails_keystoreFile_iff :
    m.require "keystoreFile" >>= Metadata.resolve h baseDir = .error g ↔
      Fails h m baseDir .keystoreFile g := by
  rw [Metadata.unnamed_iff]
  exact ⟨.keystoreFile, fun | .keystoreFile hun => hun⟩

theorem fails_passwordFile_iff :
    m.require "keystorePasswordFile" >>= Metadata.resolve h baseDir = .error g ↔
      Fails h m baseDir .passwordFile g := by
  rw [Metadata.unnamed_iff]
  exact ⟨.passwordFile, fun | .passwordFile hun => hun⟩

/-! ## What they come to -/

theorem ne_of_decodeHex {w : Datum} {key : List UInt8}
    (ok : Metadata.decodeHex "pubkey" 48 w = .ok key) : w ≠ .null ∧ w ≠ .str "" := by
  constructor <;> rintro rfl <;> cases ok

theorem keystorePublicKey_eq_ok {key : List UInt8} : keystorePublicKey p v = .ok key ↔
    ∃ members crypto pubkey, v = .object members ∧ members.lookup "crypto" = some (.object crypto) ∧
      members.lookup "pubkey" = some pubkey ∧
      Metadata.decodeHex "pubkey" 48 pubkey.toDatum = .ok key := by
  unfold keystorePublicKey
  constructor
  · intro ok
    split at ok
    · cases ok
    · next members hm =>
      split at ok
      · cases ok
      · next hc =>
        obtain rfl := members?_eq_some.1 hm
        obtain ⟨crypto, hcrypto⟩ := any_isObject_iff.1 (by simpa using hc)
        obtain ⟨w, hw, hkey⟩ := bind_eq_ok.1 ok
        obtain ⟨pubkey, hpubkey, rfl⟩ := Option.map_eq_some_iff.1 (Metadata.require_eq_ok.1 hw).1
        exact ⟨members, crypto, pubkey, rfl, hcrypto, hpubkey, hkey⟩
  · rintro ⟨members, crypto, pubkey, rfl, hcrypto, hpubkey, hkey⟩
    have hw : (Metadata.ofMembers members).require "pubkey" = .ok pubkey.toDatum :=
      Metadata.require_eq_ok.2 ⟨congrArg (Option.map _) hpubkey, ne_of_decodeHex hkey⟩
    have hc := any_isObject_iff.2 ⟨crypto, hcrypto⟩
    simp only [Json.Value.members?, Json.Value.get?_object, hc, hw]
    exact hkey

/-- A password is the text before the line feeds at the end. -/
theorem readPassword_eq_ok {password : List Char} :
    readPassword h p = .ok (String.ofList password) ↔
      ∃ n, h.readText p = .ok (password ++ List.replicate n '\n') ∧ password.getLast? ≠ some '\n' := by
  simp only [readPassword, bind_eq_ok, mapError_eq_ok, pure, Except.pure, Except.ok.injEq,
    String.ofList_inj]
  constructor
  · rintro ⟨text, ht, htrim⟩
    obtain ⟨⟨n, rfl⟩, hlast⟩ := (Text.trimLineEnds_eq_iff (Host.not_mem_readText ht)).1 htrim
    exact ⟨n, ht, hlast⟩
  · rintro ⟨n, ht, hlast⟩
    exact ⟨_, ht, (Text.trimLineEnds_eq_iff (Host.not_mem_readText ht)).2 ⟨⟨n, rfl⟩, hlast⟩⟩

/-! ## All steps -/

/-- The steps one after the other. -/
theorem createKeystore_eq_bind (h : Host) (m : Metadata) (baseDir source : Path) :
    createKeystore h m baseDir source =
      (m.require "keystoreFile" >>= Metadata.resolve h baseDir) >>= fun keystoreFile =>
      (m.require "keystorePasswordFile" >>= Metadata.resolve h baseDir) >>= fun passwordFile =>
      (readJson h keystoreFile).mapError (keystoreFailure keystoreFile) >>= fun v =>
      keystorePublicKey keystoreFile v >>= fun key =>
      readPassword h passwordFile >>= fun password => .ok {
        identifier := identifierOf key
        keyType := "file-keystore"
        source? := some source
        keystoreFile? := some keystoreFile
        keystorePassword? := some password } := by
  simp only [createKeystore, bind_assoc]
  rfl

theorem createKeystore_eq_error : createKeystore h m baseDir source = .error f ↔
    FirstFailure (Fails h m baseDir) keystoreSteps f := by
  rw [createKeystore_eq_bind]
  refine firstFailure_bind [KeystoreStep.keystoreFile] _ (fun g => ?_) fun keystoreFile hk => ?_
  · rw [firstFailure_singleton, fails_keystoreFile_iff]
  refine firstFailure_bind [KeystoreStep.passwordFile] _ (fun g => ?_) fun passwordFile hp => ?_
  · rw [firstFailure_singleton, fails_passwordFile_iff]
  have hkeystore := Metadata.names_iff.1 hk
  refine firstFailure_bind [KeystoreStep.text, .json] _ (fun g => readJson_eq_error hkeystore)
    fun v hv => ?_
  have hholds := readJson_eq_ok.1 (mapError_eq_ok.1 hv)
  refine firstFailure_bind [KeystoreStep.object, .crypto, .publicKey] _
    (fun g => keystorePublicKey_eq_error hkeystore hholds) fun key _ => ?_
  refine firstFailure_bind [KeystoreStep.password] [] (fun g => ?_) fun password _ => ?_
  · rw [firstFailure_singleton, fails_password_iff (Metadata.names_iff.1 hp)]
  · exact ⟨nofun, fun hnil => absurd hnil not_firstFailure_nil⟩

theorem createKeystore_eq_ok {c : Credential} :
    createKeystore h m baseDir source = .ok c ↔ Describes h m baseDir source c := by
  simp only [createKeystore_eq_bind, bind_eq_ok, Metadata.require_eq_ok, mapError_eq_ok, readJson_eq_ok,
    keystorePublicKey_eq_ok, Except.ok.injEq]
  constructor
  · rintro ⟨keystoreFile, hk, passwordFile, hp, v, hv, key, ⟨members, crypto, pubkey, rfl, hcrypto,
      hpubkey, hkey⟩, password, hpassword, rfl⟩
    rw [← String.ofList_toList (s := password)] at hpassword ⊢
    obtain ⟨n, ht, hlast⟩ := readPassword_eq_ok.1 hpassword
    exact .intro hk hp hv hcrypto hpubkey hkey ht hlast
  · rintro ⟨hk, hp, hv, hcrypto, hpubkey, hkey, ht, hlast⟩
    exact ⟨_, hk, _, hp, _, hv, _, ⟨_, _, _, rfl, hcrypto, hpubkey, hkey⟩, _,
      readPassword_eq_ok.2 ⟨_, ht, hlast⟩, rfl⟩

/-! ## Other members -/

/-- Two objects agree on what counts of them. -/
structure SameKeystore (members members' : List (String × Json.Value)) : Prop where
  publicKey : members'.lookup "pubkey" = members.lookup "pubkey"
  crypto : (∃ inner, members'.lookup "crypto" = some (.object inner)) ↔
    ∃ inner, members.lookup "crypto" = some (.object inner)

/-- What the files of two hosts may hold that differ in other members of keystores only; those are at
the places in `S`. -/
inductive OtherMembers (S : Location → Prop) : Contents
  | same (l bytes) : OtherMembers S l bytes bytes
  | keystore {l : Location} {bytes bytes' : List UInt8} {text text' : List Char}
      {members members' : List (String × Json.Value)} : S l → Host.textOf bytes = .ok text →
      Host.textOf bytes' = .ok text' → Json.read text = .ok (.object members) →
      Json.read text' = .ok (.object members') → SameKeystore members members' →
      OtherMembers S l bytes bytes'

/-- Two values are the same, or keystores with other members. -/
inductive SameValue : Json.Value → Json.Value → Prop
  | same (v : Json.Value) : SameValue v v
  | keystore {members members' : List (String × Json.Value)} : SameKeystore members members' →
      SameValue (.object members) (.object members')

variable {S : Location → Prop}

/-- The texts that a path leads to have alike values, and are the same outside `S`. -/
theorem readText_otherMembers (halike : h.Alike (OtherMembers S) h') (p : Path) :
    Outcome.Alike (fun text text' => Outcome.Alike SameValue (jsonOf text) (jsonOf text') ∧
      (¬ h.LeadsInto p S → text' = text)) (h.readText p) (h'.readText p) := by
  refine (Host.read_alike halike p).bind ?_
  rintro bytes bytes' ⟨l, hl, hbytes⟩
  cases hbytes with
  | same => exact .of_eq (fun _ => ⟨.of_eq .same rfl, fun _ => rfl⟩) rfl
  | keystore hS ht ht' hv hv' hsame =>
    rw [ht, ht']
    refine .ok ⟨?_, fun hout => absurd ⟨l, _, hl, hS⟩ hout⟩
    rw [jsonOf, jsonOf, hv, hv']
    exact .ok (.keystore hsame)

theorem readJson_otherMembers (halike : h.Alike (OtherMembers S) h') (p : Path) :
    Outcome.Alike SameValue (readJson h p) (readJson h' p) :=
  (readText_otherMembers halike p).bind fun _ _ htext => htext.1

theorem readPassword_otherMembers (halike : h.Alike (OtherMembers S) h') (p : Path) :
    Outcome.Alike (fun password password' => ¬ h.LeadsInto p S → password' = password)
      (readPassword h p) (readPassword h' p) :=
  ((readText_otherMembers halike p).mapError _).bind fun _ _ htext =>
    .ok fun hout => by rw [htext.2 hout]

/-- The public key is that of the member with its name. -/
theorem keystorePublicKey_congr {v' : Json.Value} (hv : SameValue v v') (p : Path) :
    keystorePublicKey p v = keystorePublicKey p v' := by
  cases hv with
  | same => rfl
  | @keystore members members' hsame =>
    have hcrypto : (members'.lookup "crypto").any isObject =
        (members.lookup "crypto").any isObject := by
      rw [Bool.eq_iff_iff, any_isObject_iff, any_isObject_iff]
      exact hsame.crypto
    have hrequire : (Metadata.ofMembers members').require "pubkey" =
        (Metadata.ofMembers members).require "pubkey" :=
      Metadata.require_congr (congrArg (Option.map _) hsame.publicKey)
    rw [keystorePublicKey, keystorePublicKey, Json.Value.get?_object, Json.Value.get?_object, hcrypto]
    simp only [Json.Value.members?, hrequire]

/-- With other members the same credential comes of a keystore, or the same failure; only the password
may be another one, if its file is one of the keystores. -/
theorem createKeystore_otherMembers (halike : h.Alike (OtherMembers S) h')
    (hm : ∀ key ∈ fileKeys, m'.get? key = m.get? key) (baseDir source : Path) :
    Outcome.Alike (fun c c' => c' = { c with keystorePassword? := c'.keystorePassword? } ∧
        ((∀ q, m.Names h baseDir "keystorePasswordFile" q → ¬ h.LeadsInto q S) → c' = c))
      (createKeystore h m baseDir source) (createKeystore h' m' baseDir source) := by
  have hkeystore : m'.require "keystoreFile" = m.require "keystoreFile" :=
    Metadata.require_congr (hm _ (by decide))
  have hword : m'.require "keystorePasswordFile" = m.require "keystorePasswordFile" :=
    Metadata.require_congr (hm _ (by decide))
  have hresolve : Metadata.resolve h' baseDir = Metadata.resolve h baseDir :=
    funext (Host.resolve_eq halike baseDir)
  simp only [createKeystore_eq_bind, hkeystore, hword, hresolve]
  refine .bind_self fun keystoreFile _ => .bind_self fun passwordFile hp => ?_
  refine ((readJson_otherMembers halike keystoreFile).mapError _).bind fun v v' hv => ?_
  rw [keystorePublicKey_congr hv]
  refine .bind_self fun key _ => (readPassword_otherMembers halike passwordFile).bind fun w w' hw => ?_
  refine .ok ⟨rfl, fun hout => ?_⟩
  rw [hw (hout passwordFile (Metadata.names_iff.1 hp))]

/-- A keystore gives the credential that the metadata and the files describe, or the failure of the
first step that fails. Neither another key of the metadata nor another member of the keystore changes
any of that. -/
theorem createKeystore_exact (h : Host) (m : Metadata) (baseDir source : Path) :
    (∀ c, createKeystore h m baseDir source = .ok c ↔ Describes h m baseDir source c) ∧
    (∀ f, createKeystore h m baseDir source = .error f ↔
      FirstFailure (Fails h m baseDir) keystoreSteps f) ∧
    ∀ h' m' S, h.Alike (OtherMembers S) h' → (∀ key ∈ fileKeys, m'.get? key = m.get? key) →
      Outcome.Alike (fun c c' => c' = { c with keystorePassword? := c'.keystorePassword? } ∧
          ((∀ q, m.Names h baseDir "keystorePasswordFile" q → ¬ h.LeadsInto q S) → c' = c))
        (createKeystore h m baseDir source) (createKeystore h' m' baseDir source) :=
  ⟨fun _ => createKeystore_eq_ok, fun _ => createKeystore_eq_error,
    fun _ _ _ halike hm => createKeystore_otherMembers halike hm baseDir source⟩

/-- The members of a keystore after those of a note. -/
def keystoreMembers (note : List (String × Json.Value)) : List (String × Json.Value) :=
  note ++ [("crypto", .object []), ("pubkey", .str (String.ofList (List.replicate 96 'B')))]

/-- The text of such a keystore. -/
def keystoreText (note : List (String × Json.Value)) : List Char :=
  (Json.write .line (.object (keystoreMembers note))).toList

def aNote : List (String × Json.Value) :=
  [("note", .str "a")]

/-- The host with a note in the keystore. -/
def notedHost : Host :=
  keystoreHost.withFile ["k.json"] (Text.Utf8.encode (keystoreText aNote))

/-- The metadata of the keystore after a note. -/
def keystoreMetadata (note : List (String × Json.Value)) : Metadata :=
  .ofMembers (note ++ [("keystoreFile", .str "/k.json"), ("keystorePasswordFile", .str "/pw")])

theorem isPlain_keystore {note : List (String × Json.Value)} (hnote : note = [] ∨ note = aNote) :
    (Json.Value.object (keystoreMembers note)).IsPlain := by
  rcases hnote with rfl | rfl
  · refine .object (by decide) fun e he => ?_
    rcases List.mem_pair.1 he with rfl | rfl
    · exact .object .nil nofun
    · exact .str _
  · refine .object (by decide) fun e he => ?_
    rcases List.mem_cons.1 he with rfl | he
    · exact .str _
    · rcases List.mem_pair.1 he with rfl | rfl
      · exact .object .nil nofun
      · exact .str _

theorem read_keystoreText {note : List (String × Json.Value)} (hnote : note = [] ∨ note = aNote) :
    Json.read (keystoreText note) = .ok (.object (keystoreMembers note)) := by
  have hread := Json.read_write (isPlain_keystore hnote) .line [] nofun
  rwa [List.append_nil] at hread

theorem textOf_noted :
    Host.textOf (Text.Utf8.encode (keystoreText aNote)) = .ok (keystoreText aNote) := by
  rw [Host.textOf_encode, Text.unifyLineEnds_of_not_mem fun hmem => ?_]
  rw [keystoreText, Json.write, String.toList_ofList] at hmem
  exact absurd (Json.isShown_of_mem_line (isPlain_keystore (.inr rfl)) hmem) (by decide)

theorem alike_notedHost : keystoreHost.Alike (OtherMembers (· = ["k.json"])) notedHost :=
  Host.alike_withFile rfl
    (.keystore rfl (toOption_eq_some.1 (by decide +kernel)) textOf_noted
      (read_keystoreText (.inl rfl)) (read_keystoreText (.inr rfl)) ⟨rfl, Iff.rfl⟩)
    fun m _ b => .same m b

theorem createKeystore_exact_keystoreHost :
    keystoreHost.Alike (OtherMembers (· = ["k.json"])) notedHost ∧
    createKeystore keystoreHost (keystoreMetadata []) (.ofString "keys") (.ofString "keys/a.yaml") =
      .ok keystoreCredential ∧
    Describes keystoreHost (keystoreMetadata []) (.ofString "keys") (.ofString "keys/a.yaml")
      keystoreCredential ∧
    createKeystore notedHost (keystoreMetadata aNote) (.ofString "keys") (.ofString "keys/a.yaml") =
      .ok keystoreCredential := by
  obtain ⟨hok, -, hsame⟩ := createKeystore_exact keystoreHost (keystoreMetadata [])
    (.ofString "keys") (.ofString "keys/a.yaml")
  have ok : createKeystore keystoreHost (keystoreMetadata []) (.ofString "keys")
      (.ofString "keys/a.yaml") = .ok keystoreCredential :=
    toOption_eq_some.1 (by decide +kernel)
  have hword : (keystoreMetadata []).Names keystoreHost (.ofString "keys") "keystorePasswordFile"
      (.ofString "/pw") :=
    Metadata.names_iff.1 (toOption_eq_some.1 (by decide +kernel))
  have hpassword : ∀ q, (keystoreMetadata []).Names keystoreHost (.ofString "keys")
      "keystorePasswordFile" q → ¬ keystoreHost.LeadsInto q (· = ["k.json"]) := by
    intro q hq
    obtain rfl := hword.unique hq
    have hlocate : keystoreHost.locate (.ofString "/pw") =
        .found ["pw"] (.file "a\rb\r\n".toUTF8.toList) := rfl
    rw [Host.leadsInto_iff hlocate]
    decide
  have hkeys : ∀ key ∈ fileKeys,
      (keystoreMetadata aNote).get? key = (keystoreMetadata []).get? key := by
    intro key hkey
    rcases List.mem_pair.1 hkey with rfl | rfl <;> rfl
  refine ⟨alike_notedHost, ok, (hok _).1 ok, ?_⟩
  rcases (hsame _ _ _ alike_notedHost hkeys).cases with ⟨f, hf, -⟩ | ⟨c, c', hc, hc', -, heq⟩
  · rw [ok] at hf
    cases hf
  · rw [ok] at hc
    cases hc
    rw [hc', heq hpassword]

end Handler

end Keyring
