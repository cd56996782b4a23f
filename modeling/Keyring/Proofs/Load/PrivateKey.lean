import Keyring.Proofs.Load.InOrder
import Keyring.Proofs.PrivateKey
/-!
# What the log shows of a private key

A directory with one candidate, which starts with a private key, is loaded with another one in its place.
The log is the same unless the text is faulty and the message shows a place where the keys differ
(`log_eq_iff_snippets_eq`): the message of a complaint quotes the line around its marks, and after a
private key that is the key (`log_ne_textAfterKey`).
-/

namespace Keyring.Load

open Log Outcome Yaml

variable {h h' : Host} {mode : Mode} {logger directory extension : String} {parser : Parser}
  {c : Candidate} {log : List Record}

/-! ## One candidate -/

/-- A load of one candidate logs what becomes of it and the summary. -/
theorem log_of_fate (hm : mode.HasWorkers)
    (hs : scan h (.ofString directory) extension = .ok ⟨[c], log⟩)
    (hf : ∀ f, mode.fate logger parser c ≠ .raised f) (schedule : List Nat) :
    (load h mode schedule logger parser directory extension).log =
      log ++ ((mode.fate logger parser c).record?.toList ++
        [summary logger (mode.fate logger parser c).credential?.toList.length 1 directory]) := by
  have hone {α : Type} {xs : List α} {o : Option α} (h : xs.Perm o.toList) : xs = o.toList := by
    cases o with
    | none => exact h.eq_nil
    | some a => exact h.eq_singleton
  rw [load_of_scan hs]
  have hsettles := candidates_settles hm schedule logger parser directory [c]
  revert hsettles
  generalize candidates mode schedule logger parser directory [c] = r
  intro hsettles
  cases hsettles with
  | raises hc hraised =>
    obtain rfl := List.mem_singleton.1 hc
    exact absurd hraised (hf _)
  | returns _ hcred herr _ =>
    have hfilter {α : Type} (g : Candidate → Option α) : [c].filterMap g = (g c).toList := by
      cases hg : g c with
      | none => rw [List.filterMap_cons_none hg]; rfl
      | some a => rw [List.filterMap_cons_some hg]; rfl
    rw [hfilter] at hcred herr
    rw [hone hcred, hone herr]
    rfl

theorem log_of_ok (hm : mode.HasWorkers)
    (hs : scan h (.ofString directory) extension = .ok ⟨[c], log⟩) {credential : Credential}
    (ho : parser c.path = .ok credential) (schedule : List Nat) :
    (load h mode schedule logger parser directory extension).log =
      log ++ [summary logger 1 1 directory] := by
  have hfate : mode.fate logger parser c = .loaded credential := fate_of_ok ho
  rw [log_of_fate hm hs (by simp [hfate]), hfate]
  rfl

theorem log_of_message (hm : mode.HasWorkers)
    (hs : scan h (.ofString directory) extension = .ok ⟨[c], log⟩) {f : Failure} {m : String}
    (ho : parser c.path = .error f) (hk : f.kind ≠ .fatal) (hmsg : f.rootMessage = .ok m)
    (schedule : List Nat) : (load h mode schedule logger parser directory extension).log =
      log ++ [failureRecord logger c.path m, summary logger 0 1 directory] := by
  have hfate : mode.fate logger parser c = .logged (failureRecord logger c.path m) :=
    fate_of_message ho hk hmsg
  rw [log_of_fate hm hs (by simp [hfate]), hfate]
  rfl

theorem failureRecord_inj {p : Path} {m m' : String} :
    failureRecord logger p m' = failureRecord logger p m ↔ m' = m := by
  simp only [failureRecord, Record.mk.injEq, String.append_right_inj, true_and]

/-- Two failures of a metadata file are logged the same exactly if their messages are. -/
theorem log_eq_iff_message_eq (hm : mode.HasWorkers)
    (hs : scan h (.ofString directory) extension = .ok ⟨[c], log⟩)
    (hs' : scan h' (.ofString directory) extension = .ok ⟨[c], log⟩) {f f' : Failure} {m m' : String}
    (ho : MetadataFile.load .builtin h c.path = .error f)
    (ho' : MetadataFile.load .builtin h' c.path = .error f') (hmsg : f.rootMessage = .ok m)
    (hmsg' : f'.rootMessage = .ok m') (schedule schedule' : List Nat) :
    (load h' mode schedule' logger (MetadataFile.load .builtin h') directory extension).log =
      (load h mode schedule logger (MetadataFile.load .builtin h) directory extension).log ↔ m' = m := by
  have hk := (MetadataFile.load_loggable h c.path f ho).kind_ne
  have hk' := (MetadataFile.load_loggable h' c.path f' ho').kind_ne
  rw [log_of_message hm hs ho hk hmsg, log_of_message hm hs' ho' hk' hmsg', List.append_cancel_left_eq,
    List.cons.injEq, failureRecord_inj, and_iff_left rfl]

/-! ## Two private keys -/

variable {key key' more : List Char}

/-- With another private key, a directory of one metadata file is loaded with the same log, unless the
file is faulty and a place that the message shows reads differently. -/
theorem log_eq_iff_snippets_eq (halike : h.Alike (KeyContents key key' more) h')
    (hkey : IsPrivateKey key) (hkey' : IsPrivateKey key') (hm : mode.HasWorkers)
    (hs : scan h (.ofString directory) extension = .ok ⟨[c], log⟩)
    (hread : h.read c.path = .ok (Text.Utf8.encode (head key ++ more)))
    (hread' : h'.read c.path = .ok (Text.Utf8.encode (head key' ++ more)))
    (schedule schedule' : List Nat) (logger : String) :
    (load h' mode schedule' logger (MetadataFile.load .builtin h') directory extension).log =
        (load h mode schedule logger (MetadataFile.load .builtin h) directory extension).log ↔
      ∀ complaint, Document.read (head key ++ Text.unifyLineEnds more) = .error (.marked complaint) →
        complaint.origin? = none → ∀ m ∈ complaint.marks,
          m.snippet (head key' ++ Text.unifyLineEnds more) =
            m.snippet (head key ++ Text.unifyLineEnds more) := by
  have hs' : scan h' (.ofString directory) extension = .ok ⟨[c], log⟩ := by rw [scan_eq halike, hs]
  rcases MetadataFile.load_head hkey hkey' halike hread hread' with
    ⟨fault, hfault, ho, ho'⟩ | ⟨⟨d, hd⟩, hsame⟩
  · by_cases hmarked : ∃ complaint : Complaint, fault = .marked complaint ∧ complaint.origin? = none
    · -- The message of a complaint shows the text at its marks.
      obtain ⟨complaint, rfl, horigin⟩ := hmarked
      rw [log_eq_iff_message_eq hm hs hs' ho ho' (MetadataFile.rootMessage_complaint horigin _)
        (MetadataFile.rootMessage_complaint horigin _), Complaint.message_eq_iff (hkey.sameLines hkey' _),
        hfault]
      constructor
      · intro hmarks complaint' hcomplaint _
        obtain rfl : complaint = complaint' := Fault.marked.inj (Except.error.inj hcomplaint)
        exact hmarks
      · exact fun hall => hall complaint rfl horigin
    · -- Every other fault shows nothing of it.
      have hother : ∀ complaint, fault = .marked complaint → complaint.origin? ≠ none :=
        fun complaint hcomplaint horigin => hmarked ⟨complaint, hcomplaint, horigin⟩
      obtain ⟨m, hmsg⟩ := (MetadataFile.load_loggable h c.path _ ho).rootMessage
      have hmsg' := (MetadataFile.rootMessage_fault hother _
        (head key' ++ Text.unifyLineEnds more)).trans hmsg
      refine iff_of_true ((log_eq_iff_message_eq hm hs hs' ho ho' hmsg hmsg' _ _).2 rfl) ?_
      intro complaint hcomplaint horigin
      rw [hfault] at hcomplaint
      exact absurd horigin (hother complaint (Except.error.inj hcomplaint))
  · -- A text without a fault leads to a credential in both loads, or to the same failure.
    refine iff_of_true ?_ fun complaint hcomplaint => by rw [hd] at hcomplaint; cases hcomplaint
    rcases hsame.cases with ⟨f, ho, ho'⟩ | ⟨credential, credential', ho, ho', -⟩
    · obtain ⟨m, hmsg⟩ := (MetadataFile.load_loggable h c.path f ho).rootMessage
      exact (log_eq_iff_message_eq hm hs hs' ho ho' hmsg hmsg _ _).2 rfl
    · rw [log_of_ok hm hs ho, log_of_ok hm hs' ho']

/-! ## Faulty files -/

/-- A directory with one metadata file. -/
def oneFile (bytes : List UInt8) : Host where
  files := ⟨[(["keys"], .directory), (["keys", "a.yaml"], .file bytes)], by simp⟩
  workingDirectory := []
  home := "/home"

/-- The file, as a scan finds it. -/
def oneFound : Candidate :=
  ⟨.ofString "keys/a.yaml", "yaml"⟩

theorem alike_oneFile {R : Contents} {bytes bytes' : List UInt8} (hR : R ["keys", "a.yaml"] bytes bytes') :
    (oneFile bytes).Alike R (oneFile bytes') :=
  ⟨FileTree.alike_of_entries (.cons ⟨rfl, .directory⟩ (.cons ⟨rfl, .file hR⟩ .nil)), rfl, rfl, rfl⟩

theorem scan_oneFile (bytes : List UInt8) :
    scan (oneFile bytes) (.ofString "keys") "yaml" = .ok ⟨[oneFound], []⟩ := by
  have he : Scan.normaliseExtension "yaml" = .ok "yaml" := toOption_eq_some.1 (by decide +kernel)
  have hl : Scan.lookUp (oneFile []) (.ofString "keys") = .directory ["keys"] := rfl
  have hn : Scan.sortedNames (oneFile []) ["keys"] = ["a.yaml"] := by
    rw [Scan.sortedNames, show (oneFile []).files.names ["keys"] = ["a.yaml"] by decide +kernel]
    exact List.mergeSort_of_pairwise (by decide)
  have ha : ["a.yaml"].map (Scan.entry (oneFile []) "yaml" ["keys"] (.ofString "keys")) =
      [(some oneFound, none)] := by decide +kernel
  rw [scan_eq (alike_oneFile (R := fun _ _ _ => True) trivial) (h := oneFile [])]
  simp only [scan, he, Scan.directory, hl, hn, ha, bind, Except.bind, pure, Except.pure]
  rfl

/-- What is wrong with a text. -/
def fault? (text : List Char) : Option Fault :=
  match Document.read text with
  | .ok _ => none
  | .error fault => some fault

theorem read_of_fault? {text : List Char} {fault : Fault} (h : fault? text = some fault) :
    Document.read text = .error fault := by
  unfold fault? at h
  split at h
  · cases h
  · next hfault => rw [hfault, Option.some.inj h]

/-- A private key of one digit. -/
def digits (digit : Char) : List Char :=
  List.replicate 64 digit

theorem isPrivateKey_digits {digit : Char} (h : isHexDigit digit = true) : IsPrivateKey (digits digit) :=
  ⟨List.length_replicate, fun c hc => by rw [List.eq_of_mem_replicate hc, h]⟩

/-- The directory with a metadata file that starts with a private key. -/
def keyFile (digit : Char) (more : String) : Host :=
  oneFile (Text.Utf8.encode (head (digits digit) ++ more.toList))

/-- A list that is not closed, on the line after a private key. -/
def openList : String :=
  "\npublicKey: ["

/-- The complaint about it. -/
def openListComplaint : Complaint :=
  ⟨.parser, some "while parsing a flow node", some ⟨106, 2, 12⟩,
    "expected the node content, but found '<stream end>'", ⟨106, 2, 12⟩, none⟩

/-- A list that is not closed is reported where it starts, and nothing of the line before is shown. -/
theorem log_eq_openList :
    (keyFile 'a' openList).Alike (KeyContents (digits 'a') (digits 'b') openList.toList)
      (keyFile 'b' openList) ∧
    IsPrivateKey (digits 'a') ∧ IsPrivateKey (digits 'b') ∧ Mode.sequential.HasWorkers ∧
    scan (keyFile 'a' openList) (.ofString "keys") "yaml" = .ok ⟨[oneFound], []⟩ ∧
    (keyFile 'a' openList).read oneFound.path =
      .ok (Text.Utf8.encode (head (digits 'a') ++ openList.toList)) ∧
    (keyFile 'b' openList).read oneFound.path =
      .ok (Text.Utf8.encode (head (digits 'b') ++ openList.toList)) ∧
    fault? (head (digits 'a') ++ openList.toList) = some (.marked openListComplaint) ∧
    (load (keyFile 'b' openList) .sequential [] "log"
      (MetadataFile.load .builtin (keyFile 'b' openList)) "keys" "yaml").log =
      (load (keyFile 'a' openList) .sequential [] "log"
        (MetadataFile.load .builtin (keyFile 'a' openList)) "keys" "yaml").log := by
  have halike : (keyFile 'a' openList).Alike (KeyContents (digits 'a') (digits 'b') openList.toList)
      (keyFile 'b' openList) := alike_oneFile (.privateKey _)
  have hkey : IsPrivateKey (digits 'a') := isPrivateKey_digits (by decide)
  have hkey' : IsPrivateKey (digits 'b') := isPrivateKey_digits (by decide)
  have hworkers : Mode.sequential.HasWorkers := trivial
  have hs : scan (keyFile 'a' openList) (.ofString "keys") "yaml" = .ok ⟨[oneFound], []⟩ :=
    scan_oneFile _
  have hfault : fault? (head (digits 'a') ++ openList.toList) = some (.marked openListComplaint) := by
    decide +kernel
  have hmore : Text.unifyLineEnds openList.toList = openList.toList := by decide
  refine ⟨halike, hkey, hkey', hworkers, hs, rfl, rfl, hfault,
    (log_eq_iff_snippets_eq halike hkey hkey' hworkers hs rfl rfl [] [] "log").2 ?_⟩
  rw [hmore]
  intro complaint hcomplaint _
  obtain rfl : openListComplaint = complaint :=
    Fault.marked.inj (Except.error.inj ((read_of_fault? hfault).symm.trans hcomplaint))
  decide +kernel

/-- The complaint about a text on the line of a private key, behind it. -/
def textAfterKeyComplaint : Complaint :=
  ⟨.parser, some "while parsing a block mapping", some ⟨0, 0, 0⟩,
    "expected <block end>, but found '<scalar>'", ⟨94, 1, 79⟩, none⟩

/-- A text after a private key is reported with the end of the key, which the log shows. -/
theorem log_ne_textAfterKey :
    IsPrivateKey (digits 'a') ∧ IsPrivateKey (digits 'b') ∧
    scan (keyFile 'a' " x") (.ofString "keys") "yaml" = .ok ⟨[oneFound], []⟩ ∧
    (keyFile 'a' " x").read oneFound.path = .ok (Text.Utf8.encode (head (digits 'a') ++ " x".toList)) ∧
    (keyFile 'b' " x").read oneFound.path = .ok (Text.Utf8.encode (head (digits 'b') ++ " x".toList)) ∧
    (load (keyFile 'b' " x") .sequential [] "log" (MetadataFile.load .builtin (keyFile 'b' " x")) "keys"
      "yaml").log ≠
      (load (keyFile 'a' " x") .sequential [] "log" (MetadataFile.load .builtin (keyFile 'a' " x")) "keys"
        "yaml").log := by
  have hkey : IsPrivateKey (digits 'a') := isPrivateKey_digits (by decide)
  have hkey' : IsPrivateKey (digits 'b') := isPrivateKey_digits (by decide)
  have hs (digit : Char) : scan (keyFile digit " x") (.ofString "keys") "yaml" = .ok ⟨[oneFound], []⟩ :=
    scan_oneFile _
  refine ⟨hkey, hkey', hs 'a', rfl, rfl, fun hlog => ?_⟩
  have hmore : Text.unifyLineEnds " x".toList = " x".toList := by decide
  have hfault : fault? (head (digits 'a') ++ " x".toList) = some (.marked textAfterKeyComplaint) := by
    decide +kernel
  have hfault' : fault? (head (digits 'b') ++ " x".toList) = some (.marked textAfterKeyComplaint) := by
    decide +kernel
  have ho := MetadataFile.load_of_fault (h := keyFile 'a' " x") (p := oneFound.path) hkey rfl
    (read_of_fault? (hmore ▸ hfault))
  have ho' := MetadataFile.load_of_fault (h := keyFile 'b' " x") (p := oneFound.path) hkey' rfl
    (read_of_fault? (hmore ▸ hfault'))
  have hworkers : Mode.sequential.HasWorkers := trivial
  have hmessage := (log_eq_iff_message_eq hworkers (hs 'a') (hs 'b') ho ho'
    (MetadataFile.rootMessage_complaint rfl _) (MetadataFile.rootMessage_complaint rfl _) [] []).1 hlog
  have hsnippets := (Complaint.message_eq_iff (hkey.sameLines hkey' _)).1 hmessage
  rw [hmore] at hsnippets
  exact absurd (hsnippets ⟨94, 1, 79⟩ (by decide)) (by decide +kernel)

end Keyring.Load
