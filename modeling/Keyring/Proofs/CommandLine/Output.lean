import Keyring.CommandLine.Run
import Keyring.Proofs.FileTree.Write
import Keyring.Proofs.Json
import Keyring.Proofs.Load.InOrder
import Keyring.Proofs.Path
/-!
# What the command writes

What the command prints reads back as the records of the credentials that were loaded, in both formats
(`execute_records`). With an output file the same text goes there, after all files were read, and
nothing else is different; where the file cannot be opened, nothing is written (`execute_output`).
-/

namespace Keyring

open Keyring.Outcome (bind_eq_ok toOption_eq_some)

/-! ## Records -/

namespace Credential

/-- What may be shown of a credential, by name; some of it may be missing. -/
def entries (c : Credential) : List (String × Option String) :=
  [("identifier", some c.identifier), ("key_type", some c.keyType),
    ("source", c.source?.map toString), ("keystore_file", c.keystoreFile?.map toString)]

/-- The JSON object of the entries that are not missing and whose names are asked for. -/
def toValue (asked : String → Bool) (c : Credential) : Json.Value :=
  .object (c.entries.filterMap fun e => if asked e.1 then e.2.map fun s => (e.1, .str s) else none)

variable (c : Credential) (asked : String → Bool)

theorem shown_eq : c.shown = c.entries.filterMap fun e => e.2.map fun s => (e.1, s) := by
  unfold shown entries
  cases c.source? <;> cases c.keystoreFile? <;> rfl

theorem toValue_eq :
    c.toValue asked = CommandLine.recordValue (c.shown.filter fun e => asked e.1) := by
  rw [shown_eq, List.filter_filterMap, CommandLine.recordValue, List.map_filterMap, toValue]
  congr 2
  funext e
  cases e.2 with
  | none => simp
  | some s => by_cases ha : asked e.1 = true <;> simp [ha, Option.filter_some]

theorem nodup_shown : (c.shown.map (·.1)).Nodup := by
  unfold shown
  cases c.source? <;> cases c.keystoreFile? <;> simp

theorem isPlain_toValue : (c.toValue asked).IsPlain := by
  rw [toValue_eq, CommandLine.recordValue]
  refine .object ?_ fun e he => ?_
  · rw [List.map_map]
    exact (List.filter_sublist.map _).nodup c.nodup_shown
  · obtain ⟨x, -, rfl⟩ := List.mem_map.1 he
    exact .str _

end Credential

namespace CommandLine

open Load

variable {h : Host} {schedule : List Nat} {environment : List (String × String)}
  {arguments : List String} {a : Arguments} {r : Request} {credentials : List Credential}
  {extension text : String} {p : Path} {f : Failure}

/-! ## Requests -/

theorem pathArgument_eq_ok : pathArgument text = .ok p ↔ hasNul text = false ∧ p = .ofString text := by
  unfold pathArgument
  split
  · next hnul => simp [hnul]
  · next hnul => simp [hnul, eq_comm]

/-- A path among the arguments can be handed to the file system. -/
theorem hasNul_of_pathArgument (hp : pathArgument text = .ok p) : hasNul (toString p) = false := by
  obtain ⟨hnul, rfl⟩ := pathArgument_eq_ok.1 hp
  exact hasNul_ofString hnul

/-- The names between the commas of a text; no text has none, and neither has an empty one. -/
def namesIn (text? : Option String) : List String :=
  match text?.filter (· ≠ "") with
  | some text => (Text.split ',' text.toList).map String.ofList
  | none => []

/-- Whether names ask for `name`. No names ask for every name. -/
def asksFor (names : List String) (name : String) : Bool :=
  names.isEmpty || names.contains name

/-- What the arguments tell of what they ask for. -/
structure Request.Fits (environment : List (String × String)) (a : Arguments) (r : Request) : Prop where
  directory : ∃ text, a.others.head?.or (setVariable? environment directoryVariable) = some text ∧
    pathArgument text = .ok r.directory
  output? : (a.get? .output).mapM pathArgument = .ok r.output?
  others : a.others.length ≤ 1
  extension : r.extension =
    ((a.get? .extension).or (setVariable? environment extensionVariable)).getD "yaml"
  fields : r.fields = namesIn (a.get? .fields)
  jsonl : r.jsonl = a.isOn .jsonl
  sync : r.sync = a.isOn .sync
  verbose : r.verbose = a.isOn .verbose

theorem Request.ofArguments_eq_ok : ofArguments environment a = .ok r ↔ r.Fits environment a := by
  unfold ofArguments
  rw [bind_eq_ok]
  constructor
  · rintro ⟨output?, houtput, h⟩
    cases htext : a.others.head?.or (setVariable? environment directoryVariable) with
    | none =>
      rw [htext] at h
      cases h
    | some text =>
      rw [htext] at h
      obtain ⟨directory, hdirectory, h⟩ := bind_eq_ok.1 h
      by_cases hothers : 1 < a.others.length
      · simp only [if_pos hothers] at h
        cases h
      · simp only [if_neg hothers] at h
        cases h
        exact ⟨⟨text, htext, hdirectory⟩, houtput, Nat.not_lt.1 hothers, rfl, rfl, rfl, rfl, rfl⟩
  · rintro ⟨⟨text, htext, hdirectory⟩, houtput, hothers, hext, hfields, hjsonl, hsync, hverbose⟩
    refine ⟨r.output?, houtput, ?_⟩
    rw [htext]
    refine bind_eq_ok.2 ⟨r.directory, hdirectory, ?_⟩
    simp only [if_neg (Nat.not_lt.2 hothers)]
    obtain ⟨directory, extension, fields, jsonl, output?, sync, verbose⟩ := r
    dsimp only at *
    subst hext hfields hjsonl hsync hverbose
    rfl

theorem Request.ofCommandLine?_eq_some : ofCommandLine? environment arguments = some r ↔
    ∃ a, Arguments.read arguments = .ok a ∧ a.isOn .help = false ∧ r.Fits environment a := by
  simp only [ofCommandLine?, Option.bind_eq_bind, Option.bind_eq_some_iff, toOption_eq_some]
  refine exists_congr fun a => and_congr_right fun _ => ?_
  cases a.isOn .help with
  | true => simp
  | false => simp [toOption_eq_some, ofArguments_eq_ok]

/-- The path of the output file can be handed to the file system. -/
theorem Request.Fits.hasNul_output (hr : r.Fits environment a) (hp : r.output? = some p) :
    hasNul (toString p) = false := by
  have houtput := hr.output?
  rw [hp] at houtput
  cases ha : a.get? .output with
  | none =>
    rw [ha] at houtput
    cases houtput
  | some text =>
    rw [ha, Option.mapM_some] at houtput
    cases hpath : pathArgument text with
    | error rejection =>
      rw [hpath] at houtput
      cases houtput
    | ok q =>
      rw [hpath] at houtput
      cases houtput
      exact hasNul_of_pathArgument hpath

theorem execute_of_ofCommandLine? (hr : Request.ofCommandLine? environment arguments = some r)
    (h : Host) (schedule : List Nat) :
    execute h schedule environment arguments = .run (run h schedule r) := by
  obtain ⟨a, ha, hhelp, hfits⟩ := Request.ofCommandLine?_eq_some.1 hr
  simp only [execute, ha, hhelp, Request.ofArguments_eq_ok.2 hfits]
  rfl

/-! ## Command lines without an output file -/

/-- The request without an output file. -/
def Request.withoutOutput (r : Request) : Request :=
  { r with output? := none }

/-- A command line that asks for what `r` asks for, but for the output file. The text has the names. -/
def plainArguments (names : String) (r : Request) : List String :=
  ["--extension", r.extension, "--fields", names] ++ (if r.jsonl then ["--jsonl"] else []) ++
    (if r.sync then ["--sync"] else []) ++ (if r.verbose then ["--verbose"] else []) ++
    ["--", toString r.directory]

theorem read_plainArguments (names : String) (r : Request) :
    Arguments.read (plainArguments names r) = .ok {
      settings := [(.fields, names), (.extension, r.extension)]
      switches := (if r.verbose then [.verbose] else []) ++ (if r.sync then [.sync] else []) ++
        (if r.jsonl then [.jsonl] else [])
      others := [toString r.directory] } := by
  unfold plainArguments
  cases r.jsonl <;> cases r.sync <;> cases r.verbose <;> rfl

/-- What a command line asks for another one asks for without an output file. -/
theorem exists_plainArguments (hr : Request.ofCommandLine? environment arguments = some r) :
    ∃ arguments', Request.ofCommandLine? environment arguments' = some r.withoutOutput := by
  obtain ⟨a, -, -, hr⟩ := Request.ofCommandLine?_eq_some.1 hr
  refine ⟨plainArguments ((a.get? .fields).getD "") r, Request.ofCommandLine?_eq_some.2
    ⟨_, read_plainArguments _ r, ?_, ?_⟩⟩
  · cases r.jsonl <;> cases r.sync <;> cases r.verbose <;> rfl
  · obtain ⟨text, -, hdirectory⟩ := hr.directory
    constructor
    case directory =>
      exact ⟨_, rfl, pathArgument_eq_ok.2
        ⟨hasNul_of_pathArgument hdirectory, (Path.ofString_toString _).symm⟩⟩
    case output? => rfl
    case others => exact Nat.le_refl 1
    case extension => rfl
    case fields =>
      rw [Request.withoutOutput, hr.fields]
      cases a.get? .fields <;> rfl
    case jsonl =>
      change r.jsonl = _
      cases r.jsonl <;> cases r.sync <;> cases r.verbose <;> rfl
    case sync =>
      change r.sync = _
      cases r.jsonl <;> cases r.sync <;> cases r.verbose <;> rfl
    case verbose =>
      change r.verbose = _
      cases r.jsonl <;> cases r.sync <;> cases r.verbose <;> rfl

/-! ## Runs -/

/-- The report of the load that a request asks for. -/
def Request.report (h : Host) (schedule : List Nat) (r : Request) : Report :=
  load h (if r.sync then .sequential else .concurrent none) schedule defaultLogger
    (MetadataFile.load .builtin h) (toString r.directory) r.extension

/-- What a request writes of credentials. -/
def Request.shown (credentials : List Credential) (r : Request) : String :=
  renderRecords r.jsonl (credentials.map (·.record r.fields))

theorem run_of_error (hresult : (r.report h schedule).result = .error f)
    (hf : f.kind.isValue = true) : ∃ stderr, run h schedule r = { exit := 2, stderr, host := h } := by
  unfold Request.report at hresult
  unfold run
  dsimp only
  rw [hresult]
  exact ⟨_, if_pos hf⟩

theorem run_eq (hresult : (r.report h schedule).result = .ok credentials) : run h schedule r =
    let stderr := renderLog r.verbose (r.report h schedule).log
    let exit := if credentials.isEmpty then 1 else 0
    match r.output? with
    | none => { exit, stdout := r.shown credentials, stderr, host := h }
    | some p =>
      match h.write p (Text.Utf8.encode (r.shown credentials).toList) with
      | .ok host => { exit, stderr, host, written? := some (p, r.shown credentials) }
      | .error f => { exit := 1, stderr, failure? := some f, host := h } := by
  unfold Request.report at hresult
  unfold run
  dsimp only
  rw [hresult]
  rfl

theorem run_withoutOutput (hresult : (r.report h schedule).result = .ok credentials) :
    run h schedule r.withoutOutput =
      { exit := if credentials.isEmpty then 1 else 0
        stdout := r.shown credentials
        stderr := renderLog r.verbose (r.report h schedule).log
        host := h } :=
  run_eq (r := r.withoutOutput) hresult

theorem result_of_rejected {f : Failure} (he : Scan.normaliseExtension r.extension = .error f)
    (h : Host) (schedule : List Nat) :
    (r.report h schedule).result = .error f := by
  rw [Request.report, load, scan, he]
  rfl

/-- One file after the other, a load of metadata files returns. -/
theorem exists_credentials {e : String} (hsync : r.sync = true)
    (he : Scan.normaliseExtension r.extension = .ok e) (h : Host) (schedule : List Nat) :
    ∃ credentials, (r.report h schedule).result = .ok credentials := by
  rw [Request.report, if_pos hsync,
    load_sequential_eq (Scan.scan_of_normaliseExtension he h _) (allLoggable_load h _)]
  exact ⟨_, rfl⟩

/-! ## What is written reads back -/

/-- A text shows values: as one JSON value on each line, or as one JSON array. -/
def Shows (jsonl : Bool) (values : List Json.Value) (text : String) : Prop :=
  if jsonl then
    ∃ lines : List String, text = String.join (lines.map (· ++ "\n")) ∧
      List.Forall₂ (fun v line => '\n' ∉ line.toList ∧ Json.read line.toList = .ok v) values lines
  else Json.read text.toList = .ok (.list values)

theorem recordValue_record (names : List String) (c : Credential) :
    recordValue (c.record names) = c.toValue (asksFor names) := by
  rw [Credential.toValue_eq, Credential.record]
  unfold asksFor
  cases names.isEmpty with
  | true => simp
  | false => simp

theorem shows_line {v : Json.Value} (hv : v.IsPlain) :
    '\n' ∉ (Json.write .line v).toList ∧ Json.read (Json.write .line v).toList = .ok v := by
  constructor
  · intro hmem
    rw [Json.write, String.toList_ofList] at hmem
    exact absurd (Json.isShown_of_mem_line hv hmem) (by decide)
  · simpa using Json.read_write hv .line [] (by simp)

theorem shows_shown (credentials : List Credential) (r : Request) :
    Shows r.jsonl (credentials.map (·.toValue (asksFor r.fields))) (r.shown credentials) := by
  have hvalues : (credentials.map (·.record r.fields)).map recordValue =
      credentials.map (·.toValue (asksFor r.fields)) := by
    rw [List.map_map]
    exact List.map_congr_left fun c _ => recordValue_record r.fields c
  have hplain : ∀ v ∈ credentials.map (·.toValue (asksFor r.fields)), v.IsPlain := by
    intro v hv
    obtain ⟨c, -, rfl⟩ := List.mem_map.1 hv
    exact c.isPlain_toValue _
  rw [Request.shown, renderRecords, hvalues]
  generalize credentials.map (·.toValue (asksFor r.fields)) = values at hplain
  cases r.jsonl with
  | true =>
    refine ⟨values.map (Json.write .line), by rw [List.map_map]; rfl, ?_⟩
    rw [List.forall₂_map_right_iff, List.forall₂_same]
    exact fun v hv => shows_line (hplain v hv)
  | false =>
    have hread := Json.read_write (.list hplain) (.indented 2) ['\n']
      (List.forall_mem_singleton.2 rfl)
    simpa [Shows] using hread

/-- Runs that read one file after the other show what may be shown of the credentials that a load
returns, in its order, restricted to the names that are asked for. A reader of JSON gets back what is
shown, whatever characters the paths have. -/
theorem execute_records (h : Host) (schedule : List Nat) (environment : List (String × String))
    (arguments : List String) (a : Arguments) (r : Request) (e : String)
    (ha : Arguments.read arguments = .ok a) (hhelp : a.isOn .help = false)
    (hsync : a.isOn .sync = true) (hr : Request.ofArguments environment a = .ok r)
    (he : Scan.normaliseExtension r.extension = .ok e) :
    ∃ o credentials text, execute h schedule environment arguments = .run o ∧
      (load h .sequential schedule defaultLogger (MetadataFile.load .builtin h)
        (toString r.directory) r.extension).result = .ok credentials ∧
      (a.get? .output = none → o.stdout = text ∧ o.failure? = none) ∧
      (∀ p written, o.written? = some (p, written) → written = text) ∧
      Shows (a.isOn .jsonl)
        (credentials.map (·.toValue (asksFor (namesIn (a.get? .fields))))) text := by
  have hfits := Request.ofArguments_eq_ok.1 hr
  have hrsync : r.sync = true := hfits.sync.trans hsync
  obtain ⟨credentials, hresult⟩ := exists_credentials hrsync he h schedule
  have hload := hresult
  rw [Request.report, if_pos hrsync] at hload
  have hshows := shows_shown credentials r
  rw [hfits.jsonl, hfits.fields] at hshows
  refine ⟨run h schedule r, credentials, r.shown credentials, ?_, hload, ?_, ?_, hshows⟩
  · exact execute_of_ofCommandLine? (Request.ofCommandLine?_eq_some.2 ⟨a, ha, hhelp, hfits⟩) h schedule
  · intro hout
    have hnone : r.output? = none := by
      have houtput := hfits.output?
      rw [hout] at houtput
      exact (Except.ok.inj houtput).symm
    rw [run_eq hresult, hnone]
    exact ⟨rfl, rfl⟩
  · intro p written hwritten
    rw [run_eq hresult] at hwritten
    dsimp only at hwritten
    split at hwritten
    · cases hwritten
    · split at hwritten
      · cases hwritten
        rfl
      · cases hwritten

/-- A key pair in a directory whose name holds a quote, a backslash, a line feed and a character that
takes two code units. -/
def oddHost : Host where
  files := ⟨[(["k\"\\\n😀"], .directory),
    (["k\"\\\n😀", "a.yaml"], .file (Text.Utf8.encode ("type: file-raw\nprivateKey: ".toList ++
      List.replicate 64 'a' ++ "\npublicKey: ".toList ++ List.replicate 96 'b')))], by decide⟩
  workingDirectory := []
  home := "/home"

theorem execute_records_oddHost :
    ∃ a r, Arguments.read ["k\"\\\n😀", "--sync", "--jsonl", "--fields", "source,identifier"] = .ok a ∧
      a.isOn .help = false ∧ a.isOn .sync = true ∧ Request.ofArguments [] a = .ok r ∧
      Scan.normaliseExtension r.extension = .ok "yaml" ∧
      ∃ o credentials, execute oddHost [] []
          ["k\"\\\n😀", "--sync", "--jsonl", "--fields", "source,identifier"] = .run o ∧
        (load oddHost .sequential [] defaultLogger (MetadataFile.load .builtin oddHost)
          (toString r.directory) r.extension).result = .ok credentials ∧
        Shows true (credentials.map (·.toValue (asksFor ["source", "identifier"]))) o.stdout := by
  have he : Scan.normaliseExtension "yaml" = .ok "yaml" := toOption_eq_some.1 (by decide +kernel)
  refine ⟨_, _, rfl, rfl, rfl, rfl, he, ?_⟩
  obtain ⟨o, credentials, text, ho, hload, hout, -, hshows⟩ :=
    execute_records oddHost [] [] ["k\"\\\n😀", "--sync", "--jsonl", "--fields", "source,identifier"] _ _
      "yaml" rfl rfl rfl rfl he
  rw [← (hout rfl).1] at hshows
  exact ⟨o, credentials, ho, hload, hshows⟩

/-! ## Where it is written -/

/-- The outcome of a run that does what `plain` does, but that it writes the text into the file at
`l`, which the path `p` leads to. -/
structure Outcome.Redirects (h : Host) (p : Path) (l : Location) (o plain : Outcome) : Prop where
  stdout : o.stdout = ""
  stderr : o.stderr = plain.stderr
  exit : o.exit = plain.exit
  failure? : o.failure? = none
  host : o.host = h.withFile l (Text.Utf8.encode plain.stdout.toList)
  read : o.host.read p = .ok (Text.Utf8.encode plain.stdout.toList)
  others : ∀ m, m ≠ l → o.host.files.at? m = h.files.at? m

/-- The outcome of a run that a failure of the file system ends before anything is written. -/
structure Outcome.Refused (h : Host) (o : Outcome) : Prop where
  exit : o.exit = 1
  failure? : ∃ f, o.failure? = some f ∧ f.kind.isOs = true
  host : o.host = h

theorem redirects_of_opensAt {l : Location} (hresult : (r.report h schedule).result = .ok credentials)
    (hp : r.output? = some p) (hnul : hasNul (toString p) = false) (hl : h.OpensAt p l) :
    (run h schedule r).Redirects h p l (run h schedule r.withoutOutput) := by
  have hwrite := Host.write_of_opensAt hnul hl (Text.Utf8.encode (r.shown credentials).toList)
  rw [run_withoutOutput hresult, run_eq hresult, hp]
  dsimp only
  rw [hwrite]
  exact ⟨rfl, rfl, rfl, rfl, rfl, Host.read_withFile hnul hl _,
    fun m hm => Host.at?_withFile_of_ne hm h _⟩

theorem refused_of_closed (hresult : (r.report h schedule).result = .ok credentials)
    (hp : r.output? = some p) (hnul : hasNul (toString p) = false) (hl : ∀ l, ¬ h.OpensAt p l) :
    (run h schedule r).Refused h := by
  obtain ⟨f, hwrite, hf⟩ :=
    Host.write_of_closed hnul hl (Text.Utf8.encode (r.shown credentials).toList)
  rw [run_eq hresult, hp]
  dsimp only
  rw [hwrite]
  exact ⟨rfl, ⟨f, rfl, hf⟩, rfl⟩

theorem isValue_of_rejected {extension : String} (he : Scan.normaliseExtension extension = .error f) :
    f.kind.isValue = true := by
  unfold Scan.normaliseExtension at he
  dsimp only at he
  split at he
  · cases he
    rfl
  · cases he

/-- Runs that read one file after the other. A rejected extension changes no file. Else the exit tells
whether there are credentials, and an output file makes one difference to the same run without it: the
text goes there. A file that cannot be opened leaves everything as it was. -/
theorem execute_output (h : Host) (schedule : List Nat) (environment : List (String × String))
    (arguments : List String) (r : Request)
    (hr : Request.ofCommandLine? environment arguments = some r) (hsync : r.sync = true) :
    ∃ o plain, execute h schedule environment arguments = .run o ∧
      (∃ arguments', Request.ofCommandLine? environment arguments' =
        some r.withoutOutput) ∧
      (∀ arguments', Request.ofCommandLine? environment arguments' = some r.withoutOutput →
        execute h schedule environment arguments' = .run plain) ∧
      match Scan.normaliseExtension r.extension with
      | .error _ => o.exit = 2 ∧ o.stdout = "" ∧ o.failure? = none ∧ o.host = h
      | .ok _ => ∃ credentials,
        (load h .sequential schedule defaultLogger (MetadataFile.load .builtin h)
          (toString r.directory) r.extension).result = .ok credentials ∧
        plain.exit = (if credentials.isEmpty then 1 else 0) ∧ plain.failure? = none ∧
        plain.host = h ∧
        match r.output? with
        | none => o = plain
        | some p =>
          (∀ l, h.OpensAt p l → o.Redirects h p l plain) ∧
          ((∀ l, ¬ h.OpensAt p l) → o.Refused h) := by
  obtain ⟨a, -, -, hfits⟩ := Request.ofCommandLine?_eq_some.1 hr
  refine ⟨run h schedule r, run h schedule r.withoutOutput,
    execute_of_ofCommandLine? hr h schedule, exists_plainArguments hr,
    fun arguments' hr' => execute_of_ofCommandLine? hr' h schedule, ?_⟩
  split
  · next f he =>
    -- The load fails before the output file is opened.
    obtain ⟨stderr, hrun⟩ :=
      run_of_error (result_of_rejected he h schedule) (isValue_of_rejected he)
    rw [hrun]
    exact ⟨rfl, rfl, rfl, rfl⟩
  · next e he =>
    obtain ⟨credentials, hresult⟩ := exists_credentials hsync he h schedule
    have hload := hresult
    rw [Request.report, if_pos hsync] at hload
    have hplain := run_withoutOutput hresult
    refine ⟨credentials, hload, by rw [hplain], by rw [hplain], by rw [hplain], ?_⟩
    split
    · next hnone =>
      have hsame : r.withoutOutput = r := by rw [Request.withoutOutput, ← hnone]
      rw [hsame]
    · next p hp =>
      have hnul := hfits.hasNul_output hp
      exact ⟨fun l hl => redirects_of_opensAt hresult hp hnul hl, refused_of_closed hresult hp hnul⟩

/-- Asks for the output to go into one of the two metadata files. -/
def overwriting : Request where
  directory := .ofString "keys"
  extension := "yaml"
  fields := []
  jsonl := false
  output? := some (.ofString "keys/a.yaml")
  sync := true
  verbose := false

theorem execute_output_twoFiles :
    Request.ofCommandLine? [] ["keys", "--sync", "-o", "keys/a.yaml"] = some overwriting ∧
      overwriting.sync = true ∧ twoFiles.OpensAt (.ofString "keys/a.yaml") ["keys", "a.yaml"] ∧
      ∃ o plain, execute twoFiles [] [] ["keys", "--sync", "-o", "keys/a.yaml"] = .run o ∧
        o.Redirects twoFiles (.ofString "keys/a.yaml") ["keys", "a.yaml"] plain := by
  have he : Scan.normaliseExtension "yaml" = .ok "yaml" := toOption_eq_some.1 (by decide +kernel)
  have hopens : twoFiles.OpensAt (.ofString "keys/a.yaml") ["keys", "a.yaml"] := .existing rfl
  refine ⟨rfl, rfl, hopens, ?_⟩
  obtain ⟨o, plain, ho, -, -, hall⟩ :=
    execute_output twoFiles [] [] ["keys", "--sync", "-o", "keys/a.yaml"] overwriting rfl rfl
  rw [show overwriting.extension = "yaml" from rfl, he] at hall
  obtain ⟨credentials, -, -, -, -, hopen, -⟩ := hall
  exact ⟨o, plain, ho, hopen _ hopens⟩

end CommandLine

end Keyring
