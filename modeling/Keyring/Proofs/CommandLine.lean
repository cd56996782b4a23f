import Keyring.CommandLine.Run
import Keyring.Proofs.Load.Image
import Keyring.Proofs.Secrets
/-!
# What the command shows

The secrets of loaded keys have no influence on what the command shows. On two hosts that differ in the
private keys of key pairs and in the texts of password files only, it exits alike, prints and logs the
same, and writes the same file (`execute_alike`).
-/

namespace Keyring.CommandLine

open Load

/-- The files at the places in `S` are none that a request reads as metadata or as a keystore. -/
structure OnlyPasswords (S : Location → Prop) (h : Host) (r : Request) : Prop where
  candidate : ∀ scanned, scan h r.directory r.extension = .ok scanned →
    ∀ c ∈ scanned.candidates, ¬ h.LeadsInto c.path S
  keystore : ∀ scanned, scan h r.directory r.extension = .ok scanned →
    ∀ c ∈ scanned.candidates, ∀ p, MetadataFile.keystoreOf h c.path = .ok p → ¬ h.LeadsInto p S

/-- The outcomes of a run on `h` and of one on `h'` show the same, and the same file was written in both
or none in either. -/
structure Outcome.SameShown (h h' : Host) (o o' : Outcome) : Prop where
  exit : o'.exit = o.exit
  stdout : o'.stdout = o.stdout
  stderr : o'.stderr = o.stderr
  failure? : o'.failure? = o.failure?
  written? : o'.written? = o.written?
  host : o.written? = none ∧ o.host = h ∧ o'.host = h' ∨
    ∃ p text l, o.written? = some (p, text) ∧
      o.host = h.withFile l (Text.Utf8.encode text.toList) ∧
      o'.host = h'.withFile l (Text.Utf8.encode text.toList)

/-- Two command lines end alike. -/
inductive End.SameShown (h h' : Host) : End → End → Prop
  | usage (fault) : SameShown h h' (.usage fault) (.usage fault)
  | help : SameShown h h' .help .help
  | run {o o'} : o.SameShown h h' o' → SameShown h h' (.run o) (.run o')

variable {S : Location → Prop} {h h' : Host} {r : Request}

/-- The reports of a request on the two hosts are the same but for secrets. -/
theorem report_alike (halike : h.Alike (SecretContents S) h') (honly : OnlyPasswords S h r)
    (mode : Mode) (schedule : List Nat) :
    (load h' mode schedule defaultLogger (MetadataFile.load .builtin h') (toString r.directory)
        r.extension).map Credential.withoutSecrets =
      (load h mode schedule defaultLogger (MetadataFile.load .builtin h) (toString r.directory)
        r.extension).map Credential.withoutSecrets := by
  refine load_map_eq halike mode schedule fun scanned hs c hc => ?_
  rw [Path.ofString_toString] at hs
  exact (MetadataFile.load_alike halike (honly.candidate scanned hs c hc)
    (honly.keystore scanned hs c hc)).map_eq

/-- What is shown of credentials does not depend on their secrets. -/
theorem records_eq {credentials credentials' : List Credential}
    (heq : credentials'.map Credential.withoutSecrets = credentials.map Credential.withoutSecrets)
    (fields : List String) :
    credentials'.map (·.record fields) = credentials.map (·.record fields) := by
  have hrecord : (fun c : Credential => c.record fields) =
      (fun c => c.record fields) ∘ Credential.withoutSecrets := rfl
  rw [hrecord, ← List.map_map, heq, List.map_map]

theorem run_alike (halike : h.Alike (SecretContents S) h') (honly : OnlyPasswords S h r)
    (schedule : List Nat) : (run h schedule r).SameShown h h' (run h' schedule r) := by
  have hreport := report_alike halike honly (if r.sync then .sequential else .concurrent none) schedule
  unfold run
  dsimp only
  revert hreport
  generalize load h _ schedule _ _ _ _ = report, load h' _ schedule _ _ _ _ = report'
  obtain ⟨result, log, calls⟩ := report
  obtain ⟨result', log', calls'⟩ := report'
  intro hreport
  simp only [Report.map, Report.mk.injEq] at hreport
  obtain ⟨hresult, rfl, -⟩ := hreport
  -- Both loads fail alike, or give credentials that differ in their secrets.
  cases result with
  | error f =>
    cases result' with
    | ok credentials' => cases hresult
    | error f' =>
      cases hresult
      dsimp only
      split
      · exact ⟨rfl, rfl, rfl, rfl, rfl, .inl ⟨rfl, rfl, rfl⟩⟩
      · exact ⟨rfl, rfl, rfl, rfl, rfl, .inl ⟨rfl, rfl, rfl⟩⟩
  | ok credentials =>
    cases result' with
    | error f' => cases hresult
    | ok credentials' =>
      have heq : credentials'.map Credential.withoutSecrets =
          credentials.map Credential.withoutSecrets := Except.ok.inj hresult
      have hempty : credentials'.isEmpty = credentials.isEmpty := by
        rw [← List.isEmpty_map (f := Credential.withoutSecrets), heq, List.isEmpty_map]
      simp only [records_eq heq, hempty]
      split
      · exact ⟨rfl, rfl, rfl, rfl, rfl, .inl ⟨rfl, rfl, rfl⟩⟩
      · next p _ =>
        rcases (Host.write_alike halike p _).cases with
          ⟨f, hwrite, hwrite'⟩ | ⟨g, g', hwrite, hwrite', l, rfl, rfl⟩
        · rw [hwrite, hwrite']
          exact ⟨rfl, rfl, rfl, rfl, rfl, .inl ⟨rfl, rfl, rfl⟩⟩
        · rw [hwrite, hwrite']
          exact ⟨rfl, rfl, rfl, rfl, rfl, .inr ⟨_, _, l, rfl, rfl, rfl⟩⟩

/-- The secrets of key pairs and the texts of password files have no influence on what the command
shows: not on how it exits, what it prints and logs, or the file that it writes. -/
theorem execute_alike (S : Location → Prop) (h h' : Host) (schedule : List Nat)
    (environment : List (String × String)) (arguments : List String)
    (halike : h.Alike (SecretContents S) h')
    (honly : ∀ r, Request.ofCommandLine? environment arguments = some r → OnlyPasswords S h r) :
    End.SameShown h h' (execute h schedule environment arguments)
      (execute h' schedule environment arguments) := by
  unfold execute
  cases ha : Arguments.read arguments with
  | error fault => exact .usage fault
  | ok a =>
    dsimp only
    split
    · exact .help
    · next hhelp =>
      cases hr : Request.ofArguments environment a with
      | ok r =>
        refine .run (run_alike halike (honly r ?_) schedule)
        simp [Request.ofCommandLine?, ha, hr, hhelp, Except.toOption]
      | error rejection =>
        cases rejection with
        | usage fault => exact .usage fault
        | failure f => exact .run ⟨rfl, rfl, rfl, rfl, rfl, .inl ⟨rfl, rfl, rfl⟩⟩

/-! ## Two hosts -/

/-- A private key of one digit. -/
def privateText (digit : Char) : List Char :=
  List.replicate 64 digit

def publicText : List Char :=
  (List.replicate 48 "0b".toList).flatten

/-- The lines of a key pair. -/
def pairLines (digit : Char) : List Yaml.Line :=
  MetadataFile.keyPairLines (privateText digit) publicText (.quoted .double) (.quoted .double)

/-- A keystore with the same public key. -/
def storeText : List Char :=
  "\x7b\"crypto\": \x7b\x7d, \"pubkey\": \"".toList ++ publicText ++ "\"\x7d".toList

/-- A key pair, and a metadata file that names a keystore and the file with its password. -/
def twoKeys (digit : Char) (password : List UInt8) : Host where
  files := ⟨[(["keys"], .directory),
    (["keys", "a.yaml"], .file (Text.Utf8.encode (Yaml.Line.join (pairLines digit) ++ ['\n']))),
    (["keys", "b.yaml"], .file (Text.Utf8.encode
      "type: file-keystore\nkeystoreFile: store.json\nkeystorePasswordFile: word.txt".toList)),
    (["keys", "store.json"], .file (Text.Utf8.encode storeText)),
    (["keys", "word.txt"], .file password)], by simp⟩
  workingDirectory := []
  home := "/home"

/-- The place of the password. -/
def isWord (l : Location) : Prop :=
  l = ["keys", "word.txt"]

theorem isKeyPair_pairLines {digit : Char} {secret : List UInt8}
    (hsecret : secret.length = Handler.secretLength) (hs : Hex.Spells secret (privateText digit)) :
    IsKeyPair (List.replicate 48 0x0b) (Yaml.Line.join (pairLines digit) ++ ['\n']) := by
  have hk : Hex.Spells (List.replicate 48 0x0b) publicText := by
    unfold Hex.Spells
    decide +kernel
  exact .intro hsecret rfl ⟨[], by decide, _, hs, rfl⟩ ⟨[], by decide, _, hk, rfl⟩ (.refl _) (.inr rfl)

theorem alike_twoKeys : (twoKeys '1' [0x61]).Alike (SecretContents isWord) (twoKeys '2' [0x62]) := by
  have hs : Hex.Spells (List.replicate 32 0x11) (privateText '1') := by
    unfold Hex.Spells
    decide +kernel
  have hs' : Hex.Spells (List.replicate 32 0x22) (privateText '2') := by
    unfold Hex.Spells
    decide +kernel
  refine ⟨FileTree.alike_of_entries ?_, rfl, rfl, rfl⟩
  refine .cons ⟨rfl, .directory⟩ (.cons ⟨rfl, .file ?_⟩ (.cons ⟨rfl, .file (.same _ _)⟩
    (.cons ⟨rfl, .file (.same _ _)⟩ (.cons ⟨rfl, .file ?_⟩ .nil))))
  · exact .keyPair (isKeyPair_pairLines rfl hs) (isKeyPair_pairLines rfl hs')
  · exact SecretContents.password rfl (rfl : _ = Except.ok ['a']) (rfl : _ = Except.ok ['b'])

theorem not_leadsInto_twoKeys {p : Path} {name : String} {e : Entry} (hne : name ≠ "word.txt")
    (hp : (twoKeys '1' [0x61]).locate p = .found ["keys", name] e) :
    ¬ (twoKeys '1' [0x61]).LeadsInto p isWord := by
  rw [Host.leadsInto_iff hp]
  exact fun hword => hne (by simpa [isWord] using hword)

/-- The candidates are the two metadata files, and neither they nor the keystore is the password. -/
theorem onlyPasswords_twoKeys {r : Request} (hdirectory : r.directory = .ofString "keys")
    (hextension : r.extension = "yaml") : OnlyPasswords isWord (twoKeys '1' [0x61]) r := by
  have hscan : ∀ scanned, scan (twoKeys '1' [0x61]) r.directory r.extension = .ok scanned →
      scanned.candidates = [⟨.ofString "keys/a.yaml", "yaml"⟩, ⟨.ofString "keys/b.yaml", "yaml"⟩] := by
    intro scanned hs
    have he : Scan.normaliseExtension "yaml" = .ok "yaml" :=
      Keyring.Outcome.toOption_eq_some.1 (by decide +kernel)
    have hd : Scan.lookUp (twoKeys '1' [0x61]) (.ofString "keys") = .directory ["keys"] := rfl
    have hnames : Scan.sortedNames (twoKeys '1' [0x61]) ["keys"] =
        ["a.yaml", "b.yaml", "store.json", "word.txt"] := by
      rw [Scan.sortedNames, show (twoKeys '1' [0x61]).files.names ["keys"] =
        ["a.yaml", "b.yaml", "store.json", "word.txt"] by decide +kernel]
      exact List.mergeSort_of_pairwise (by decide)
    rw [hdirectory, hextension, Scan.scan_of_normaliseExtension he] at hs
    rw [← Except.ok.inj hs, Scan.candidates_directory hd, hnames]
    decide +kernel
  have ha : (MetadataFile.keystoreOf (twoKeys '1' [0x61]) (.ofString "keys/a.yaml")).toOption = none := by
    decide +kernel
  have hb : (MetadataFile.keystoreOf (twoKeys '1' [0x61]) (.ofString "keys/b.yaml")).toOption =
      some (.ofString "keys/store.json") := by
    decide +kernel
  constructor
  case candidate =>
    intro scanned hs c hc
    rw [hscan scanned hs] at hc
    rcases List.mem_pair.1 hc with rfl | rfl
    · exact not_leadsInto_twoKeys (by decide) rfl
    · exact not_leadsInto_twoKeys (by decide) rfl
  case keystore =>
    intro scanned hs c hc p hp
    rw [hscan scanned hs] at hc
    rw [← Keyring.Outcome.toOption_eq_some] at hp
    rcases List.mem_pair.1 hc with rfl | rfl
    · rw [ha] at hp
      cases hp
    · rw [hb] at hp
      cases hp
      exact not_leadsInto_twoKeys (by decide) rfl

/-- The password that a load of the second metadata file comes to. -/
def loadedPassword? (h : Host) : Option String :=
  (MetadataFile.load .builtin h (.ofString "keys/b.yaml")).toOption.bind (·.keystorePassword?)

theorem execute_alike_twoKeys :
    (twoKeys '1' [0x61]).Alike (SecretContents isWord) (twoKeys '2' [0x62]) ∧
    loadedPassword? (twoKeys '1' [0x61]) = some "a" ∧
    loadedPassword? (twoKeys '2' [0x62]) = some "b" ∧
    (∀ r, Request.ofCommandLine? [] ["keys", "--sync", "--fields", "secret", "-o", "out"] = some r →
      OnlyPasswords isWord (twoKeys '1' [0x61]) r) ∧
    End.SameShown (twoKeys '1' [0x61]) (twoKeys '2' [0x62])
      (execute (twoKeys '1' [0x61]) [] [] ["keys", "--sync", "--fields", "secret", "-o", "out"])
      (execute (twoKeys '2' [0x62]) [] [] ["keys", "--sync", "--fields", "secret", "-o", "out"]) := by
  have honly : ∀ r,
      Request.ofCommandLine? [] ["keys", "--sync", "--fields", "secret", "-o", "out"] = some r →
      OnlyPasswords isWord (twoKeys '1' [0x61]) r := by
    intro r hr
    have hdirectory : (Request.ofCommandLine? []
        ["keys", "--sync", "--fields", "secret", "-o", "out"]).map (·.directory) =
        some (.ofString "keys") := by
      decide +kernel
    have hextension : (Request.ofCommandLine? []
        ["keys", "--sync", "--fields", "secret", "-o", "out"]).map (·.extension) = some "yaml" := by
      decide +kernel
    rw [hr] at hdirectory hextension
    exact onlyPasswords_twoKeys (Option.some.inj hdirectory) (Option.some.inj hextension)
  exact ⟨alike_twoKeys, by decide +kernel, by decide +kernel, honly, execute_alike isWord _ _ [] [] _ alike_twoKeys honly⟩

end Keyring.CommandLine
