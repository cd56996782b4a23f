import Keyring.MetadataFile
import Keyring.Proofs.Load.Modes
import Keyring.Proofs.Registry
/-!
# What loaded credentials are made of

`Credential.WellFormed` says what a credential that came from a metadata file is made of: a public
key of 48 bytes in hex, the file, and either a secret of 32 bytes or a keystore with its password.
Each handler builds only such credentials, so metadata files load only such, and so do directories,
in every mode (`loaded_wellFormed`).
-/

namespace Keyring

namespace Credential

/-- A credential whose secret is in the metadata. -/
structure IsRaw (c : Credential) : Prop where
  keyType : c.keyType = "file-raw"
  secret : ∃ secret, c.secret? = some secret ∧ secret.length = 32
  keystoreFile : c.keystoreFile? = none
  keystorePassword : c.keystorePassword? = none

/-- A credential whose secret is in a keystore. The password is all of its file but the line ends at
the end. -/
structure IsKeystore (c : Credential) : Prop where
  keyType : c.keyType = "file-keystore"
  secret : c.secret? = none
  keystoreFile : ∃ p, c.keystoreFile? = some p
  keystorePassword : ∃ password, c.keystorePassword? = some password ∧ '\r' ∉ password.toList ∧
    password.toList.getLast? ≠ some '\n'

/-- The text is a mark and the digits of 48 bytes. -/
def IsIdentifier (s : String) : Prop :=
  ∃ digits, s = "0x" ++ String.ofList digits ∧ digits.length = 96 ∧ ∀ d ∈ digits, Hex.IsDigit d

/-- What a credential from the file at `source` is made of. -/
structure WellFormed (c : Credential) (source : Path) : Prop where
  identifier : IsIdentifier c.identifier
  source_eq : c.source? = some source
  secrets : c.IsRaw ∨ c.IsKeystore

end Credential

open Credential Outcome

/-! ## Fields -/

theorem Metadata.length_of_decodeHex {name : String} {length : Nat} {v : Datum} {bs : List UInt8}
    (h : decodeHex name length v = .ok bs) : bs.length = length := by
  unfold decodeHex at h
  split at h
  · split at h
    · cases h
    · split at h
      · next hlength =>
        cases h
        exact Int.ofNat_inj.1 hlength
      · cases h
  · cases h

theorem Host.not_mem_readText {h : Host} {p : Path} {cs : List Char} (ok : h.readText p = .ok cs) :
    '\r' ∉ cs := by
  obtain ⟨bytes, -, ok⟩ := bind_eq_ok.1 ok
  unfold textOf at ok
  split at ok
  · cases ok
    exact Text.not_mem_unifyLineEnds _
  · cases ok

namespace Handler

theorem isIdentifier_identifierOf {key : List UInt8} (h : key.length = publicLength) :
    IsIdentifier (identifierOf key) := by
  refine ⟨key.flatMap Hex.encodeByte, rfl, ?_, ?_⟩
  · rw [Hex.length_flatMap_encodeByte, h]; rfl
  · intro d hd
    obtain ⟨b, -, hd⟩ := List.mem_flatMap.1 hd
    exact Hex.isDigit_of_mem_encodeByte hd

/-! ## Handlers -/

theorem createRaw_wellFormed {m : Metadata} {source : Path} {c : Credential}
    (ok : createRaw m source = .ok c) : c.WellFormed source := by
  simp only [createRaw, bind_eq_ok] at ok
  obtain ⟨_, -, secret, hs, _, -, key, hk, ok⟩ := ok
  cases ok
  have hsecret : secret.length = 32 := Metadata.length_of_decodeHex hs
  exact ⟨isIdentifier_identifierOf (Metadata.length_of_decodeHex hk), rfl,
    .inl ⟨rfl, ⟨secret, rfl, hsecret⟩, rfl, rfl⟩⟩

theorem length_of_keystorePublicKey {p : Path} {v : Json.Value} {key : List UInt8}
    (ok : keystorePublicKey p v = .ok key) : key.length = publicLength := by
  unfold keystorePublicKey at ok
  split at ok
  · cases ok
  · split at ok
    · cases ok
    · obtain ⟨_, -, ok⟩ := bind_eq_ok.1 ok
      exact Metadata.length_of_decodeHex ok

/-- Reading makes line feeds of all line ends, and those at the end are dropped. -/
theorem readPassword_lineEnds {h : Host} {p : Path} {password : String}
    (ok : readPassword h p = .ok password) :
    '\r' ∉ password.toList ∧ password.toList.getLast? ≠ some '\n' := by
  obtain ⟨text, ht, ok⟩ := bind_eq_ok.1 ok
  cases ok
  rw [String.toList_ofList]
  constructor
  · intro hr
    exact Host.not_mem_readText (mapError_eq_ok.1 ht) (Text.mem_of_mem_trimLineEnds hr)
  · intro hn
    exact absurd (Text.isLineEnd_of_getLast? hn) (by decide)

theorem createKeystore_wellFormed {h : Host} {m : Metadata} {baseDir source : Path} {c : Credential}
    (ok : createKeystore h m baseDir source = .ok c) : c.WellFormed source := by
  simp only [createKeystore, bind_eq_ok] at ok
  obtain ⟨_, -, keystoreFile, -, _, -, _, -, _, -, key, hk, password, hp, ok⟩ := ok
  cases ok
  exact ⟨isIdentifier_identifierOf (length_of_keystorePublicKey hk), rfl,
    .inr ⟨rfl, rfl, ⟨keystoreFile, rfl⟩, ⟨password, rfl, readPassword_lineEnds hp⟩⟩⟩

end Handler

/-! ## Files and directories -/

namespace MetadataFile

theorem create_wellFormed {h : Host} {p : Path} {m : Metadata} {c : Credential}
    (ok : create .builtin h p m = .ok c) : c.WellFormed p := by
  unfold create at ok
  split at ok
  · cases ok
  · obtain ⟨handler, hh, ok⟩ := bind_eq_ok.1 ok
    rw [mapError_eq_ok] at ok
    rcases Registry.choose_builtin hh with rfl | rfl
    · exact Handler.createRaw_wellFormed ok
    · exact Handler.createKeystore_wellFormed ok

theorem load_wellFormed {h : Host} {p : Path} {c : Credential} (ok : load .builtin h p = .ok c) :
    c.WellFormed p := by
  simp only [load, bind_eq_ok] at ok
  obtain ⟨_, -, _, -, _, -, ok⟩ := ok
  exact create_wellFormed ok

end MetadataFile

/-- Credentials of metadata files are well-formed, and a load of a directory, in any mode and on any
schedule, returns no others: each is that of a file that the scan found. -/
theorem loaded_wellFormed (h : Host) :
    (∀ p c, MetadataFile.load .builtin h p = .ok c → c.WellFormed p) ∧
    ∀ mode schedule logger directory extension credentials,
      (load h mode schedule logger (MetadataFile.load .builtin h) directory extension).result =
        .ok credentials →
      ∀ c ∈ credentials, ∃ scanned, scan h (.ofString directory) extension = .ok scanned ∧
        ∃ d ∈ scanned.candidates, c.WellFormed d.path := by
  refine ⟨fun p c ok => MetadataFile.load_wellFormed ok, ?_⟩
  intro mode schedule logger directory extension credentials hr c hc
  obtain ⟨scanned, hs, d, hd, ok⟩ := Load.exists_of_mem_load hr hc
  exact ⟨scanned, hs, d, hd, MetadataFile.load_wellFormed ok⟩

/-- A metadata file with a keystore; the password has line ends in it and after it. -/
def keystoreHost : Host where
  files := ⟨[(["keys"], .directory),
    (["keys", "a.yaml"], .file
      "type: file-keystore\nkeystoreFile: /k.json\nkeystorePasswordFile: /pw".toUTF8.toList),
    (["k.json"], .file ("\x7b\"crypto\": \x7b\x7d, \"pubkey\": \"" ++
      String.ofList (List.replicate 96 'B') ++ "\"\x7d").toUTF8.toList),
    (["pw"], .file "a\rb\r\n".toUTF8.toList)], by decide⟩
  workingDirectory := []
  home := "/home"

/-- The credential in it. -/
def keystoreCredential : Credential where
  identifier := "0x" ++ String.ofList (List.replicate 96 'b')
  keyType := "file-keystore"
  source? := some (.ofString "keys/a.yaml")
  keystoreFile? := some (.ofString "/k.json")
  keystorePassword? := some "a\nb"

theorem load_keystoreHost :
    MetadataFile.load .builtin keystoreHost (.ofString "keys/a.yaml") = .ok keystoreCredential :=
  toOption_eq_some.1 (by decide +kernel)

theorem scan_keystoreHost : scan keystoreHost (.ofString "keys") "yaml" =
    .ok ⟨[⟨.ofString "keys/a.yaml", "yaml"⟩], []⟩ :=
  toOption_eq_some.1 (by decide +kernel)

theorem loaded_wellFormed_keystoreHost :
    MetadataFile.load .builtin keystoreHost (.ofString "keys/a.yaml") = .ok keystoreCredential ∧
    keystoreCredential.WellFormed (.ofString "keys/a.yaml") ∧
    (load keystoreHost .sequential [] "log" (MetadataFile.load .builtin keystoreHost) "keys"
      "yaml").result = .ok [keystoreCredential] ∧
    ∃ scanned, scan keystoreHost (.ofString "keys") "yaml" = .ok scanned ∧
      ∃ d ∈ scanned.candidates, keystoreCredential.WellFormed d.path := by
  have hload : (load keystoreHost .sequential [] "log" (MetadataFile.load .builtin keystoreHost)
      "keys" "yaml").result = .ok [keystoreCredential] := by
    rw [Load.load_of_scan scan_keystoreHost]
    simp only [Load.candidates, Load.sequential, Load.parseAll, load_keystoreHost]
    rfl
  exact ⟨load_keystoreHost, (loaded_wellFormed keystoreHost).1 _ _ load_keystoreHost, hload,
    (loaded_wellFormed keystoreHost).2 _ _ _ _ _ _ hload _ List.mem_cons_self⟩

end Keyring
