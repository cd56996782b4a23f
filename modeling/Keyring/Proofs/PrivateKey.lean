import Keyring.Proofs.Secrets
import Keyring.Proofs.Yaml.Complaint
import Keyring.Proofs.Yaml.PrivateKey.Document
/-!
# Metadata files that start with a private key

A metadata file may start with its type and a private key between quotes, and go on with anything. With
another private key of hex digits its text has the same fault, or the file is loaded or fails as before
(`load_head`). So the private key can only show in the message of a fault, which may quote the text.
-/

namespace Keyring

open Outcome Yaml

/-- The digits of a private key. -/
structure IsPrivateKey (key : List Char) : Prop where
  length : key.length = 64
  isHexDigit : ∀ c ∈ key, isHexDigit c = true

/-- What the files of two hosts may hold that differ in private keys: texts that start with one or the
other and go on with the same. -/
inductive KeyContents (key key' more : List Char) : Contents
  | same (l bytes) : KeyContents key key' more l bytes bytes
  | privateKey (l) : KeyContents key key' more l (Text.Utf8.encode (head key ++ more))
      (Text.Utf8.encode (head key' ++ more))

variable {key key' more : List Char} {h h' : Host} {p : Path}

namespace IsPrivateKey

theorem isWord (hkey : IsPrivateKey key) : IsWord key :=
  fun c hc => isWordChar_of_isHexDigit (hkey.isHexDigit c hc)

theorem exists_isSpelling (hkey : IsPrivateKey key) :
    ∃ secret : List UInt8, secret.length = Handler.secretLength ∧ Hex.IsSpelling secret key := by
  obtain ⟨secret, hlength, hspells⟩ := Hex.exists_spells (n := 32) hkey.length hkey.isHexDigit
  exact ⟨secret, hlength, [], by decide, key, hspells, rfl⟩

/-- A private key ends no line. -/
theorem map_isLineEnd (hkey : IsPrivateKey key) : key.map isLineEnd = List.replicate 64 false := by
  refine List.eq_replicate_iff.2 ⟨by rw [List.length_map, hkey.length], fun b hb => ?_⟩
  obtain ⟨c, hc, rfl⟩ := List.mem_map.1 hb
  simpa using of_isWordChar (p := fun c => !isLineEnd c) (by decide +kernel) (hkey.isWord c hc)

theorem sameLines (hkey : IsPrivateKey key) (hkey' : IsPrivateKey key') (more : List Char) :
    SameLines (head key ++ more) (head key' ++ more) := by
  unfold SameLines head
  generalize "type: file-raw\nprivateKey: \"".toList = start
  simp only [List.map_append, hkey.map_isLineEnd, hkey'.map_isLineEnd]

/-- The line ends in the rest of the text are made line feeds. -/
theorem textOf_encode (hkey : IsPrivateKey key) (more : List Char) :
    Host.textOf (Text.Utf8.encode (head key ++ more)) = .ok (head key ++ Text.unifyLineEnds more) := by
  have hchars : '\r' ∉ head key := by
    intro hmem
    have hne := of_mem_head (p := fun c => c != '\r') (by decide +kernel) (by decide)
      (fun _ => of_isWordChar (p := fun c => c != '\r') (by decide +kernel)) hkey.isWord _ hmem
    cases hne
  rw [Host.textOf_encode, Text.unifyLineEnds_append hchars]

theorem readText (hkey : IsPrivateKey key)
    (hread : h.read p = .ok (Text.Utf8.encode (head key ++ more))) :
    h.readText p = .ok (head key ++ Text.unifyLineEnds more) := by
  rw [Host.readText, hread]
  exact hkey.textOf_encode more

end IsPrivateKey

/-- A text that starts with the type is no JSON. -/
theorem Json.read_head (key more : List Char) :
    Json.read (head key ++ more) = .error (.at "Expecting value" 0) := by
  rewrite [Scan.head_append]
  rfl

/-- A text is read on both hosts or on neither. -/
theorem Host.readText_head (hkey : IsPrivateKey key) (hkey' : IsPrivateKey key')
    (halike : h.Alike (KeyContents key key' more) h') (p : Path) :
    Outcome.Alike (fun cs cs' => cs' = cs ∨ cs = head key ++ Text.unifyLineEnds more ∧
      cs' = head key' ++ Text.unifyLineEnds more) (h.readText p) (h'.readText p) := by
  refine (Host.read_alike halike p).bind ?_
  rintro bytes bytes' ⟨l, -, hbytes⟩
  cases hbytes with
  | same => exact .of_eq (fun _ => .inl rfl) rfl
  | privateKey =>
    rw [hkey.textOf_encode, hkey'.textOf_encode]
    exact .ok (.inr ⟨rfl, rfl⟩)

/-! ## Handlers -/

/-- Two mappings that give all keys the same values, or `privateKey` two private keys. -/
def Metadata.Twin (key key' : List Char) (m m' : Metadata) : Prop :=
  ∀ k, m'.get? k = m.get? k ∨ k = "privateKey" ∧ m.get? k = some (.str (String.ofList key)) ∧
    m'.get? k = some (.str (String.ofList key'))

variable {m m' : Metadata}

theorem Metadata.Twin.require_eq (hm : Metadata.Twin key key' m m') {k : String}
    (hk : k ≠ "privateKey") : m'.require k = m.require k := by
  rcases hm k with hget | ⟨h, -⟩
  · rw [require, hget, require]
  · exact absurd h hk

namespace Handler

/-- Private keys are all read, and are no part of what is shown of a credential. -/
theorem createRaw_twin (hkey : IsPrivateKey key) (hkey' : IsPrivateKey key')
    (hm : Metadata.Twin key key' m m') (source : Path) :
    Outcome.Alike Credential.SameShown (createRaw m source) (createRaw m' source) := by
  have hpublic := hm.require_eq (k := "publicKey") (by decide)
  rcases hm "privateKey" with hget | ⟨-, hget, hget'⟩
  · have hprivate : m'.require "privateKey" = m.require "privateKey" := by
      rw [Metadata.require, hget, Metadata.require]
    refine .of_eq Credential.SameShown.refl ?_
    rw [createRaw, createRaw, hprivate, hpublic]
  · obtain ⟨secret, hsecret, hs⟩ := hkey.exists_isSpelling
    obtain ⟨secret', hsecret', hs'⟩ := hkey'.exists_isSpelling
    rw [MetadataFile.createRaw_privateKey hs hsecret hget,
      MetadataFile.createRaw_privateKey hs' hsecret' hget', hpublic]
    exact .bind_self fun _ _ => .bind_self fun _ _ => .ok rfl

theorem readJson_head (hkey : IsPrivateKey key) (hkey' : IsPrivateKey key')
    (halike : h.Alike (KeyContents key key' more) h') (p : Path) : readJson h' p = readJson h p := by
  refine (alike_eq_iff.1 ((Host.readText_head hkey hkey' halike p).bind ?_)).symm
  rintro cs cs' (rfl | ⟨rfl, rfl⟩)
  · exact .of_eq (fun _ => rfl) rfl
  · rw [Json.read_head, Json.read_head]
    exact .error _

/-- A keystore does not look at the private key of a metadata file. -/
theorem createKeystore_twin (hkey : IsPrivateKey key) (hkey' : IsPrivateKey key')
    (halike : h.Alike (KeyContents key key' more) h') (hm : Metadata.Twin key key' m m')
    (baseDir source : Path) :
    Outcome.Alike Credential.SameShown (createKeystore h m baseDir source)
      (createKeystore h' m' baseDir source) := by
  have hfields : createKeystore h' m' baseDir source = createKeystore h' m baseDir source := by
    rw [createKeystore, createKeystore, hm.require_eq (by decide), hm.require_eq (by decide)]
  -- The metadata files are read as password files where they are named as such.
  have hsecrets : h.Alike (SecretContents fun _ => True) h' := by
    refine halike.mono fun l b b' hb => ?_
    cases hb with
    | same => exact .same _ _
    | privateKey => exact .password trivial (Text.Utf8.decode_encode _) (Text.Utf8.decode_encode _)
  rw [hfields]
  exact createKeystore_alike hsecrets (fun p _ => readJson_head hkey hkey' halike p) source

end Handler

namespace MetadataFile

theorem create_twin (hkey : IsPrivateKey key) (hkey' : IsPrivateKey key')
    (halike : h.Alike (KeyContents key key' more) h') (hm : Metadata.Twin key key' m m') :
    Outcome.Alike Credential.SameShown (create .builtin h p m) (create .builtin h' p m') := by
  have htype : m'.get? "type" = m.get? "type" := by
    rcases hm "type" with hget | ⟨hne, -⟩
    · exact hget
    · exact absurd hne (by decide)
  unfold create
  rw [htype]
  split
  · exact .error _
  · refine .bind_self fun handler hhandler => Alike.mapError ?_ _
    rcases Registry.choose_builtin hhandler with rfl | rfl
    · exact Handler.createRaw_twin hkey hkey' hm p
    · exact Handler.createKeystore_twin hkey hkey' halike hm _ p

/-- A text that starts with a private key and is faulty fails with the fault. -/
theorem load_of_fault (hkey : IsPrivateKey key)
    (hread : h.read p = .ok (Text.Utf8.encode (head key ++ more))) {fault : Fault}
    (hfault : Yaml.Document.read (head key ++ Text.unifyLineEnds more) = .error fault) :
    load .builtin h p =
      .error (yamlFailure p (fault.toFailure (head key ++ Text.unifyLineEnds more))) := by
  rw [load_of_text _ (hkey.readText hread), readDocument, hfault]
  rfl

theorem load_of_document (hkey : IsPrivateKey key)
    (hread : h.read p = .ok (Text.Utf8.encode (head key ++ more))) {d : Yaml.Document}
    (hd : Yaml.Document.read (head key ++ Text.unifyLineEnds more) = .ok d)
    {es : List (Key × Value)} (hentries : d.entries? = some es) :
    load .builtin h p = create .builtin h p ⟨d.get?⟩ := by
  have hmap : mappingOf p d = .ok ⟨d.get?⟩ := by rw [mappingOf, hentries]
  rw [load_of_text _ (hkey.readText hread), readDocument, hd]
  change mappingOf p d >>= create .builtin h p = _
  rw [hmap]
  rfl

/-- A file with another private key has the same fault, or is loaded or fails as before. -/
theorem load_head (hkey : IsPrivateKey key) (hkey' : IsPrivateKey key')
    (halike : h.Alike (KeyContents key key' more) h')
    (hread : h.read p = .ok (Text.Utf8.encode (head key ++ more)))
    (hread' : h'.read p = .ok (Text.Utf8.encode (head key' ++ more))) :
    (∃ fault, Yaml.Document.read (head key ++ Text.unifyLineEnds more) = .error fault ∧
      load .builtin h p =
        .error (yamlFailure p (fault.toFailure (head key ++ Text.unifyLineEnds more))) ∧
      load .builtin h' p =
        .error (yamlFailure p (fault.toFailure (head key' ++ Text.unifyLineEnds more)))) ∨
    (∃ d, Yaml.Document.read (head key ++ Text.unifyLineEnds more) = .ok d) ∧
      Outcome.Alike Credential.SameShown (load .builtin h p) (load .builtin h' p) := by
  have hlength : key'.length = key.length := by rw [hkey.length, hkey'.length]
  rcases (Yaml.Document.read_head hkey.isWord hkey'.isWord hlength (Text.unifyLineEnds more)).cases with
    ⟨fault, hd, hd'⟩ | ⟨d, d', hd, hd', htwin⟩
  · exact .inl ⟨fault, hd, load_of_fault hkey hread hd, load_of_fault hkey' hread' hd'⟩
  · obtain ⟨_, _, hentries, hentries', -⟩ := htwin.entries?
    rw [load_of_document hkey hread hd hentries, load_of_document hkey' hread' hd' hentries']
    exact .inr ⟨⟨d, hd⟩, create_twin hkey hkey' halike htwin.get?⟩

/-! ## Messages -/

/-- The message at the root of a fault is that of the complaint, unless a failure lies behind it. -/
theorem rootMessage_complaint {c : Complaint} (hc : c.origin? = none) (text : List Char) :
    (yamlFailure p ((Fault.marked c).toFailure text)).rootMessage = .ok (c.message text) := by
  have hfailure : (Fault.marked c).toFailure text = .ofText c.stage.kind (c.message text) := by
    rw [Fault.toFailure, hc]
  have hroot : ((Failure.ofText c.stage.kind (c.message text)).wrap .metadata
      ("Invalid YAML in metadata file " ++ toString p)).rootMessage =
      .ok (if c.message text = "" then c.stage.kind.name else c.message text) := rfl
  rw [hfailure, yamlFailure, if_pos (by exact c.stage.isYaml_kind), hroot,
    if_neg (c.message_ne_empty text)]

/-- All other faults show nothing of the text. -/
theorem rootMessage_fault {fault : Fault} (hfault : ∀ c, fault = .marked c → c.origin? ≠ none)
    (text text' : List Char) : (yamlFailure p (fault.toFailure text')).rootMessage =
      (yamlFailure p (fault.toFailure text)).rootMessage := by
  cases fault with
  | character c position => rfl
  | value flaw message => rfl
  | endless => rfl
  | marked c =>
    obtain ⟨⟨kind, reason⟩, hc⟩ := Option.ne_none_iff_exists'.1 (hfault c rfl)
    have hfailure (text : List Char) : (Fault.marked c).toFailure text =
        (Failure.ofText kind reason).during c.stage.kind (c.message text) := by
      rw [Fault.toFailure, hc]
    -- The failure that the complaint came from is the root, and says nothing of the text.
    have hroot (text : List Char) : (yamlFailure p ((Fault.marked c).toFailure text)).rootMessage =
        .ok (if reason = "" then kind.name else reason) := by
      rw [hfailure, yamlFailure, if_pos (by rw [Failure.kind_during]; exact c.stage.isYaml_kind)]
      rfl
    rw [hroot, hroot]

end MetadataFile

end Keyring
