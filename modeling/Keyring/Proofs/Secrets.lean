import Keyring.Proofs.Contents
import Keyring.Proofs.RawKey
/-!
# Metadata files with other secrets

Two hosts may differ in the private keys of key pairs and in the texts of password files
(`SecretContents`). A metadata file is then loaded on both or on neither, for the same reason, and what
may be shown of its credential is the same (`load_alike`), unless the file itself or the keystore that
it names is one of the password files.
-/

namespace Keyring

open Outcome

/-- The credential without its secrets. -/
def Credential.withoutSecrets (c : Credential) : Credential :=
  { c with secret? := none, keystorePassword? := none }

/-- Two credentials differ in their secrets only. -/
def Credential.SameShown (c c' : Credential) : Prop :=
  c.withoutSecrets = c'.withoutSecrets

theorem Credential.SameShown.refl (c : Credential) : c.SameShown c := rfl

/-! ## Texts with secrets -/

/-- The text of a metadata file with a key pair, of which the public key is `key`. -/
inductive IsKeyPair (key : List UInt8) : List Char → Prop
  | intro {secret secretText keyText s t lines ending} : secret.length = Handler.secretLength →
      key.length = Handler.publicLength → Hex.IsSpelling secret secretText →
      Hex.IsSpelling key keyText →
      lines.Perm (MetadataFile.keyPairLines secretText keyText s t) → (ending = [] ∨ ending = ['\n']) →
      IsKeyPair key (Yaml.Line.join lines ++ ending)

/-- What the files of two hosts may hold that differ in secrets only: key pairs with the same public
key, and any texts at the places in `S`. -/
inductive SecretContents (S : Location → Prop) : Contents
  | same (l bytes) : SecretContents S l bytes bytes
  | keyPair {l key cs cs'} : IsKeyPair key cs → IsKeyPair key cs' →
      SecretContents S l (Text.Utf8.encode cs) (Text.Utf8.encode cs')
  | password {l bytes bytes' cs cs'} : S l → Text.Utf8.decode bytes = .ok cs →
      Text.Utf8.decode bytes' = .ok cs' → SecretContents S l bytes bytes'

/-- The path leads to one of the places in `S`. -/
def Host.LeadsInto (h : Host) (p : Path) (S : Location → Prop) : Prop :=
  ∃ l e, h.locate p = .found l e ∧ S l

theorem Host.leadsInto_iff {h : Host} {p : Path} {S : Location → Prop} {l : Location} {e : Entry}
    (hp : h.locate p = .found l e) : h.LeadsInto p S ↔ S l := by
  constructor
  · rintro ⟨l', e', hl, hS⟩
    rw [hp, FileTree.Walk.found.injEq] at hl
    rwa [hl.1]
  · exact fun hS => ⟨l, e, hp, hS⟩

/-- The texts that a path leads to are the same, or those of key pairs with the same public key, or
they are at a place in `S`. -/
inductive SecretText (h : Host) (p : Path) (S : Location → Prop) : List Char → List Char → Prop
  | same (cs) : SecretText h p S cs cs
  | keyPair {key cs cs'} : IsKeyPair key cs → IsKeyPair key cs' → SecretText h p S cs cs'
  | password {cs cs'} : h.LeadsInto p S → SecretText h p S cs cs'

namespace IsKeyPair

variable {key : List UInt8} {cs cs' : List Char}

theorem ne_nil {length : Nat} {bs : List UInt8} (hlength : bs.length = length) (hpos : 0 < length) :
    bs ≠ [] := by
  rintro rfl
  simp at hlength
  omega

theorem isLineChar (h : IsKeyPair key cs) : ∀ c ∈ cs, Yaml.isLineChar c = true := by
  obtain ⟨hsecret, hkey, hs, hk, hlines, hending⟩ := h
  exact MetadataFile.isLineChar_keyPair hs (ne_nil hsecret (by decide)) hk (ne_nil hkey (by decide))
    hlines hending

/-- The text is read as it was written. -/
theorem textOf_encode (h : IsKeyPair key cs) : Host.textOf (Text.Utf8.encode cs) = .ok cs := by
  rw [Host.textOf_encode]
  refine congrArg Except.ok (Text.unifyLineEnds_of_not_mem fun hc => ?_)
  exact (Yaml.of_isLineChar (h.isLineChar _ hc)).2.2 rfl

/-- A text that starts with one of the three keys is no JSON. -/
theorem read_key {l : Yaml.Line} {secretText keyText : List Char} {s t : Yaml.Style}
    (hl : l ∈ MetadataFile.keyPairLines secretText keyText s t) (rest : List Char) :
    Json.read (l.key ++ rest) = .error (.at "Expecting value" 0) := by
  simp only [MetadataFile.keyPairLines, List.mem_cons, List.not_mem_nil, or_false] at hl
  rcases hl with rfl | rfl | rfl
  all_goals rfl

theorem read_json (h : IsKeyPair key cs) : Json.read cs = .error (.at "Expecting value" 0) := by
  obtain ⟨hsecret, hkey, hs, hk, hlines, hending⟩ := h
  rename_i secret secretText keyText s t lines ending
  cases lines with
  | nil => exact absurd hlines.length_eq (by simp [MetadataFile.keyPairLines])
  | cons l lines =>
    obtain ⟨rest, hrest⟩ := Yaml.Line.exists_join_cons l lines
    rw [hrest, List.append_assoc]
    exact read_key (hlines.mem_iff.1 List.mem_cons_self) _

end IsKeyPair

variable {S : Location → Prop} {h h' : Host} {p : Path}

/-- A text is read on both hosts or on neither. -/
theorem Host.readText_alike (halike : h.Alike (SecretContents S) h') (p : Path) :
    Outcome.Alike (SecretText h p S) (h.readText p) (h'.readText p) := by
  refine (Host.read_alike halike p).bind ?_
  rintro bytes bytes' ⟨l, hl, hbytes⟩
  cases hbytes with
  | same => exact .of_eq .same rfl
  | keyPair hcs hcs' =>
    rw [hcs.textOf_encode, hcs'.textOf_encode]
    exact .ok (.keyPair hcs hcs')
  | password hS hcs hcs' =>
    rw [Host.textOf, Host.textOf, hcs, hcs']
    exact .ok (.password ⟨l, _, hl, hS⟩)

/-! ## Keystores -/

namespace Handler

theorem readJson_eq (halike : h.Alike (SecretContents S) h') (hp : ¬ h.LeadsInto p S) :
    readJson h' p = readJson h p := by
  refine (alike_eq_iff.1 ((Host.readText_alike halike p).bind fun cs cs' hcs => ?_)).symm
  cases hcs with
  | same => exact .of_eq (fun _ => rfl) rfl
  | keyPair hcs hcs' =>
    rw [hcs.read_json, hcs'.read_json]
    exact .error _
  | password hinto => exact absurd hinto hp

/-- A password is read on both hosts or on neither. -/
theorem readPassword_alike (halike : h.Alike (SecretContents S) h') (p : Path) :
    Outcome.Alike (fun _ _ => True) (readPassword h p) (readPassword h' p) :=
  ((Host.readText_alike halike p).mapError _).bind fun _ _ _ => .ok trivial

/-- A keystore is used on both hosts or on neither if it reads the same. -/
theorem createKeystore_alike (halike : h.Alike (SecretContents S) h') {m : Metadata} {baseDir : Path}
    (hkeystore : ∀ p, (m.require "keystoreFile").bind (Metadata.resolve h baseDir) = .ok p →
      readJson h' p = readJson h p) (source : Path) :
    Outcome.Alike Credential.SameShown (createKeystore h m baseDir source)
      (createKeystore h' m baseDir source) := by
  unfold createKeystore
  simp only [Host.resolve_eq halike]
  refine .bind_self fun v hv => .bind_self fun keystoreFile hfile => .bind_self fun w _ =>
    .bind_self fun passwordFile _ => ?_
  rw [hkeystore keystoreFile (by rw [hv]; exact hfile)]
  refine .bind_self fun v _ => .bind_self fun key _ => ?_
  exact (readPassword_alike halike passwordFile).bind fun _ _ _ => .ok rfl

end Handler

/-! ## Metadata files -/

namespace MetadataFile

/-- The keystore that a metadata file names. -/
def keystoreOf (h : Host) (p : Path) : Except Failure Path := do
  let m ← mappingOf p (← readDocument p (← h.readText p))
  Metadata.resolve h p.parent (← m.require "keystoreFile")

theorem create_alike (halike : h.Alike (SecretContents S) h') {m : Metadata}
    (hkeystore : ∀ q, (m.require "keystoreFile").bind (Metadata.resolve h p.parent) = .ok q →
      ¬ h.LeadsInto q S) :
    Outcome.Alike Credential.SameShown (create .builtin h p m) (create .builtin h' p m) := by
  unfold create
  split
  · exact .error _
  · refine .bind_self fun handler hhandler => Alike.mapError ?_ _
    rcases Registry.choose_builtin hhandler with rfl | rfl
    · exact .of_eq Credential.SameShown.refl rfl
    · exact Handler.createKeystore_alike halike
        (fun q hq => Handler.readJson_eq halike (hkeystore q hq)) p

/-- A key pair gives a credential of which only the public key is shown. -/
theorem load_of_isKeyPair {key : List UInt8} {cs : List Char} (hread : h.readText p = .ok cs)
    (hcs : IsKeyPair key cs) : ∃ secret, load .builtin h p =
      .ok ⟨Handler.identifierOf key, "file-raw", some p, some secret, none, none⟩ := by
  obtain ⟨hsecret, hkey, hs, hk, hlines, hending⟩ := hcs
  rename_i secret secretText keyText s t lines ending
  obtain ⟨d, hdocument, htype, hprivate, hpublic⟩ :=
    read_keyPair hs (IsKeyPair.ne_nil hsecret (by decide)) hk (IsKeyPair.ne_nil hkey (by decide))
      hlines hending
  refine ⟨secret, ?_⟩
  rw [load_of_get? _ hread hdocument htype, create_fileRaw htype,
    createRaw_keyPair hs hsecret hk hkey hprivate hpublic]
  rfl

/-- A metadata file is loaded on both hosts or on neither, and what may be shown of its credential is
the same. -/
theorem load_alike (halike : h.Alike (SecretContents S) h') (hp : ¬ h.LeadsInto p S)
    (hkeystore : ∀ q, keystoreOf h p = .ok q → ¬ h.LeadsInto q S) :
    Outcome.Alike Credential.SameShown (load .builtin h p) (load .builtin h' p) := by
  rcases (Host.readText_alike halike p).cases with
    ⟨f, hread, hread'⟩ | ⟨cs, cs', hread, hread', hcs⟩
  · simp only [load, hread, hread']
    exact .error _
  · cases hcs with
    | password hinto => exact absurd hinto hp
    | keyPair hcs hcs' =>
      obtain ⟨secret, hload⟩ := load_of_isKeyPair hread hcs
      obtain ⟨secret', hload'⟩ := load_of_isKeyPair hread' hcs'
      rw [hload, hload']
      exact .ok rfl
    | same =>
      rw [load_of_text _ hread, load_of_text _ hread']
      refine .bind_self fun d hd => .bind_self fun m hm => create_alike halike fun q hq => ?_
      refine hkeystore q ?_
      simp only [keystoreOf, hread, bind, Except.bind, hd, hm]
      exact hq

end MetadataFile

end Keyring
