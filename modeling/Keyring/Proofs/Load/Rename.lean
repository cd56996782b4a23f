import Keyring.Proofs.Credential
import Keyring.Proofs.Load.Account
import Keyring.Proofs.Load.InOrder
import Keyring.Proofs.LongPath
import Keyring.Proofs.MetadataFile.ReadsSame
import Keyring.Proofs.RawKey
import Keyring.Proofs.Scan.Rename
/-!
# Loads before and after a metadata file is renamed

A load gives the same credentials whatever its files are called: if a candidate is renamed, its
credential gets the new path, and the number of failures is the same (`load_renamed`). The one thing
that a name decides is how long the path of its file is, and the system does not read a file whose path
is too long (`load_loses_renamed`).
-/

namespace Keyring

open Outcome

variable {h h' : Host} {p p' : Path}

/-- The credential of the file at `p`, if it is that, as it is loaded from the file at `p'`. -/
def Credential.relocate (p p' : Path) (c : Credential) : Credential :=
  if c.source? = some p then c.withSource p' else c

namespace Load

open Log

variable {directory extension : String} {parser : Parser} {mode : Mode} {scanned : Scan.Result}

/-- A load whose failures can all be logged returns the credentials, in some order, and logs one
failure for each of the other candidates. -/
theorem load_of_allLoggable (schedule : List Nat) (logger : String) (hworkers : mode.HasWorkers)
    (hs : scan h (.ofString directory) extension = .ok scanned)
    (hp : AllLoggable parser scanned.candidates) :
    ∃ credentials,
      (load h mode schedule logger parser directory extension).result = .ok credentials ∧
      credentials.Perm (loaded parser scanned.candidates) ∧
      credentials.length + (load h mode schedule logger parser directory extension).errors.length =
        scanned.candidates.length := by
  have hfate (c : Candidate) (hc : c ∈ scanned.candidates) :
      (∀ f, mode.fate logger parser c ≠ .raised f) ∧ mode.drops (parser c.path) = false := by
    cases ho : parser c.path with
    | ok credential =>
      rw [fate_of_ok ho]
      exact ⟨by simp, rfl⟩
    | error f =>
      obtain ⟨m, hmessage⟩ := (hp c hc f ho).rootMessage
      have hkind := (hp c hc f ho).kind_ne
      rw [fate_of_message ho hkind hmessage]
      exact ⟨by simp, by simp [Mode.drops, hkind, hmessage]⟩
  rcases load_cases hworkers hs schedule logger parser with ⟨c, hc, f, hf, -⟩ | ⟨hf, credentials, hr⟩
  · exact absurd hf ((hfate c hc).1 f)
  · have hperm : credentials.Perm (loaded parser scanned.candidates) := by
      simpa only [credential?_fate, loaded] using hr.loaded
    refine ⟨credentials, hr.result, hperm, ?_⟩
    rw [((accounts_fates hf).of_perm hr.loaded hr.errors).length_eq, List.length_filter_eq_length_iff]
    intro c hc
    rw [(hfate c hc).2]
    rfl

/-- A load of one candidate returns its credential, or logs one failure. -/
theorem load_of_oneCandidate {c : Candidate} (schedule : List Nat) (logger : String)
    (hworkers : mode.HasWorkers)
    (hs : scan h (.ofString directory) extension = .ok scanned) (hc : scanned.candidates = [c])
    (hp : AllLoggable parser scanned.candidates) :
    (load h mode schedule logger parser directory extension).result =
      .ok (parser c.path).toOption.toList ∧
    (parser c.path).toOption.toList.length +
      (load h mode schedule logger parser directory extension).errors.length = 1 := by
  obtain ⟨credentials, hresult, hperm, hlength⟩ :=
    load_of_allLoggable schedule logger hworkers hs hp
  have hcredentials : credentials = (parser c.path).toOption.toList := by
    rw [hc] at hperm
    cases ho : (parser c.path).toOption with
    | none => simpa [loaded, ho] using hperm
    | some credential => simpa [loaded, ho] using hperm
  rw [hc] at hlength
  exact ⟨hcredentials ▸ hresult, hcredentials ▸ hlength⟩

/-- Credentials of candidates in the directory `p`, by name. -/
theorem loaded_candidates (parser : Parser) (p : Path) (e : String) (names : List String) :
    loaded parser (names.map (Scan.candidate p e)) =
      names.filterMap fun name => (parser (p.child name)).toOption := by
  rw [loaded, List.filterMap_map]
  rfl

section Renamed

variable {e old new name : String} {l : Location} {bytes : List UInt8}

/-- No candidate of the directory `p` refers to the file at `source` on the host `h`, or to the one at
`target` on the host `h'`. -/
def NotReferred (h h' : Host) (e : String) (p : Path) (source target : Location) : Prop :=
  ∀ c ∈ (Scan.directory h p e).candidates, ∀ q ∈ MetadataFile.references h c.path,
    ¬ h.LeadsTo q source ∧ ¬ h'.LeadsTo q target

instance (h h' : Host) (e : String) (p : Path) (source target : Location) :
    Decidable (NotReferred h h' e p source target) :=
  inferInstanceAs (Decidable (∀ c ∈ _, ∀ q ∈ _, _ ∧ _))

/-- The system takes the path of a file under its old name if and only if it takes the one under its
new name: either is too long for it, or neither. -/
def SameReach (p : Path) (old new : String) : Prop :=
  (toString (p.child old)).utf8ByteSize ≤ Host.longestPath ↔
    (toString (p.child new)).utf8ByteSize ≤ Host.longestPath

variable (hm : h.Moved h' (l ++ [old]) (l ++ [new]) bytes) (hfiles : h.files.WellFormed)
  (hlinks : Scan.LinkFree h l) (hren : Scan.Renames h e l p old new)
include hm hfiles hren

/-- A candidate is read under its new name as it was under its old one. -/
theorem readsSame_renamed (hreach : SameReach p old new) {b : List UInt8}
    (hb : h.files.at? (l ++ [name]) = some (.file b)) :
    ReadsSame h h' (p.child name) (p.child (Scan.rename old new name)) := by
  obtain ⟨hnul, hp⟩ := Scan.locate_of_lookUp hren.directory
  obtain ⟨-, hp'⟩ := Scan.locate_of_lookUp (Scan.lookUp_moved hm hren.directory)
  have hb' := (Scan.at?_rename hm (hren.ne hb)).trans hb
  have hname' : FileTree.IsFileName (Scan.rename old new name) := by
    unfold Scan.rename
    split
    · exact hren.isFileName
    · exact hfiles.isFileName hb
  have hsize : (toString (p.child name)).utf8ByteSize ≤ Host.longestPath ↔
      (toString (p.child (Scan.rename old new name))).utf8ByteSize ≤ Host.longestPath := by
    unfold Scan.rename
    split
    · next hold =>
      rw [hold]
      exact hreach
    · rfl
  refine readsSame_of_read (matched_of_ok_iff fun x => ?_)
  rw [Host.read_child hp hnul (hfiles.isFileName hb) hb, Host.read_child hp' hnul hname' hb', hsize]

include hlinks in
/-- A candidate gives the same credential after the renaming, but for the path of the file that was
renamed. -/
theorem toOption_load_renamed (hreach : SameReach p old new)
    (hrefs : NotReferred h h' e p (l ++ [old]) (l ++ [new]))
    (hname : name ∈ (Scan.sortedNames h l).filter (Scan.accepts h e l p)) :
    (MetadataFile.load .builtin h' (p.child (Scan.rename old new name))).toOption =
      (MetadataFile.load .builtin h (p.child name)).toOption.map
        (Credential.relocate (p.child old) (p.child new)) := by
  obtain ⟨⟨b, hb⟩, -⟩ :=
    (Scan.matches_of_linkFree hlinks).1 ((Scan.mem_filter_accepts hfiles).1 hname).1
  have hisName := (hfiles.isFileName hb).isName
  have hold : IsName old := hren.file.isRegular.isName hfiles
  -- Relative paths start from the same directory.
  have hparent : (p.child (Scan.rename old new name)).parent = (p.child name).parent := by
    rw [p.parent_child hisName]
    unfold Scan.rename
    split
    · exact p.parent_child hren.isFileName.isName
    · exact p.parent_child hisName
  have hcandidate : Scan.candidate p e name ∈ (Scan.directory h p e).candidates := by
    rw [Scan.candidates_directory hren.directory]
    exact List.mem_map_of_mem hname
  -- What the candidate refers to is not the file that is moved, so it reads the same.
  have hnamed : ∀ q ∈ MetadataFile.references h (p.child name), ReadsSame h h' q q := by
    intro q hq
    obtain ⟨hbefore, hafter⟩ := hrefs _ hcandidate q hq
    exact readsSame_of_read (matched_of_ok_iff (hm.read hbefore hafter))
  rw [(MetadataFile.load_matched hparent (hm.resolve_eq _)
    (readsSame_renamed hm hfiles hren hreach hb) hnamed).toOption_eq]
  refine Option.map_congr fun c hc => ?_
  have hsource : c.source? = some (p.child name) :=
    (MetadataFile.load_wellFormed (toOption_eq_some.1 hc)).source_eq
  unfold Credential.relocate Scan.rename
  by_cases heq : name = old
  · rw [if_pos heq, if_pos (by rw [hsource, heq])]
  · have hne : c.source? ≠ some (p.child old) := by
      rw [hsource]
      exact fun h => heq ((Path.child_inj hisName hold).1 (Option.some.inj h))
    rw [if_neg heq, if_neg hne, Credential.withSource, ← hsource]

/-- The names of one directory give the credentials of the other. -/
theorem perm_loaded_renamed (hfiles' : h'.files.WellFormed) (hlinks : Scan.LinkFree h l)
    (hreach : SameReach p old new) (hrefs : NotReferred h h' e p (l ++ [old]) (l ++ [new])) :
    (loaded (MetadataFile.load .builtin h') (Scan.directory h' p e).candidates).Perm
      ((loaded (MetadataFile.load .builtin h) (Scan.directory h p e).candidates).map
        (Credential.relocate (p.child old) (p.child new))) := by
  rw [Scan.candidates_directory hren.directory, loaded_candidates,
    Scan.candidates_directory (Scan.lookUp_moved hm hren.directory), loaded_candidates]
  refine ((Scan.perm_accepted_moved hm hfiles hfiles' hlinks hren).filterMap _).trans (.of_eq ?_)
  rw [List.filterMap_map, List.map_filterMap]
  refine List.filterMap_congr fun name hname => ?_
  rw [Function.comp_apply]
  exact toOption_load_renamed hm hfiles hlinks hren hreach hrefs hname

theorem length_candidates_renamed (hfiles' : h'.files.WellFormed) (hlinks : Scan.LinkFree h l) :
    (Scan.directory h' p e).candidates.length = (Scan.directory h p e).candidates.length := by
  rw [Scan.candidates_directory hren.directory,
    Scan.candidates_directory (Scan.lookUp_moved hm hren.directory), List.length_map, List.length_map,
    (Scan.perm_accepted_moved hm hfiles hfiles' hlinks hren).length_eq, List.length_map]

end Renamed

/-- Which credentials a directory gives does not depend on the names of its files. If a candidate gets
another name that is free and is that of a candidate, and none refers to it by either name, the same
credentials are loaded, that of the file with its new path, and as many failures are logged. -/
theorem load_renamed (h : Host) (mode mode' : Mode) (schedule schedule' : List Nat)
    (logger directory extension e : String) (l : Location) (old new : String)
    (hworkers : mode.HasWorkers) (hworkers' : mode'.HasWorkers)
    (he : Scan.normaliseExtension extension = .ok e)
    (hfiles : h.files.WellFormed) (hlinks : Scan.LinkFree h l)
    (hren : Scan.Renames h e l (.ofString directory) old new)
    (hreach : SameReach (.ofString directory) old new)
    (hrefs : NotReferred h (h.move (l ++ [old]) (l ++ [new])) e (.ofString directory) (l ++ [old])
      (l ++ [new])) :
    let h' := h.move (l ++ [old]) (l ++ [new])
    let before := load h mode schedule logger (MetadataFile.load .builtin h) directory extension
    let after := load h' mode' schedule' logger (MetadataFile.load .builtin h') directory extension
    ∃ credentials credentials', before.result = .ok credentials ∧ after.result = .ok credentials' ∧
      credentials'.Perm (credentials.map (Credential.relocate (Path.child (.ofString directory) old)
        (Path.child (.ofString directory) new))) ∧
      after.errors.length = before.errors.length := by
  obtain ⟨⟨bytes, hfile⟩, -⟩ := (Scan.matches_of_linkFree hlinks).1 hren.file
  have hm := Host.moved_move hfiles hfile hren.free
  have hfiles' := hm.files.wellFormed hfiles (hfiles.parent hfile) hren.isFileName
  generalize h.move (l ++ [old]) (l ++ [new]) = h' at *
  intro h' before after
  have hs := Scan.scan_of_normaliseExtension he h (.ofString directory)
  have hs' := Scan.scan_of_normaliseExtension he h' (.ofString directory)
  obtain ⟨credentials, hresult, hperm, hlength⟩ :=
    load_of_allLoggable schedule logger hworkers hs (allLoggable_load h _)
  obtain ⟨credentials', hresult', hperm', hlength'⟩ :=
    load_of_allLoggable schedule' logger hworkers' hs' (allLoggable_load h' _)
  have hsame := (hperm'.trans (perm_loaded_renamed hm hfiles hren hfiles' hlinks hreach hrefs)).trans
    (hperm.map _).symm
  -- As many candidates and as many credentials leave as many failures.
  have hcount := hsame.length_eq
  rw [List.length_map] at hcount
  rw [length_candidates_renamed hm hfiles hren hfiles' hlinks] at hlength'
  refine ⟨credentials, credentials', hresult, hresult', hsame, ?_⟩
  change (load h' mode' schedule' logger _ directory extension).errors.length =
    (load h mode schedule logger _ directory extension).errors.length
  omega

theorem wellFormed_keystoreHost : keystoreHost.files.WellFormed :=
  FileTree.wellFormed_of_entries (by decide +kernel)

theorem renames_keystoreHost :
    Scan.Renames keystoreHost "yaml" ["keys"] (.ofString "keys") "a.yaml" "b.YAML" where
  directory := Scan.lookUp_of_locate rfl rfl
  file := ⟨.file rfl, by decide +kernel⟩
  visible := by decide
  free := rfl
  isFileName := by decide
  suffix := by decide +kernel
  visible_new := by decide

/-- The keystore is loaded from the file under its new name as it was under the old one. -/
theorem load_renamed_keystoreHost :
    let renamed := keystoreHost.move ["keys", "a.yaml"] ["keys", "b.YAML"]
    Mode.sequential.HasWorkers ∧ Mode.async.HasWorkers ∧
    Scan.normaliseExtension ".yaml" = .ok "yaml" ∧
    keystoreHost.files.WellFormed ∧ Scan.LinkFree keystoreHost ["keys"] ∧
    Scan.Renames keystoreHost "yaml" ["keys"] (.ofString "keys") "a.yaml" "b.YAML" ∧
    SameReach (.ofString "keys") "a.yaml" "b.YAML" ∧
    NotReferred keystoreHost renamed "yaml" (.ofString "keys") ["keys", "a.yaml"] ["keys", "b.YAML"] ∧
    (load renamed .async [0, 0, 0, 0] "log" (MetadataFile.load .builtin renamed) "keys" ".yaml").result =
      .ok [keystoreCredential.withSource (.ofString "keys/b.YAML")] := by
  intro renamed
  have he : Scan.normaliseExtension ".yaml" = .ok "yaml" := toOption_eq_some.1 (by decide +kernel)
  have hlinks : Scan.LinkFree keystoreHost ["keys"] :=
    fun _ => FileTree.at?_ne_link (by simp [keystoreHost]) _
  have hreach : SameReach (.ofString "keys") "a.yaml" "b.YAML" := by unfold SameReach; decide +kernel
  have hrefs : NotReferred keystoreHost renamed "yaml" (.ofString "keys") ["keys", "a.yaml"]
      ["keys", "b.YAML"] := by decide +kernel
  obtain ⟨credentials, credentials', hbefore, hafter, hperm, -⟩ :=
    load_renamed keystoreHost .sequential .async [] [0, 0, 0, 0] "log" "keys" ".yaml" "yaml" ["keys"]
      "a.yaml" "b.YAML" trivial trivial he wellFormed_keystoreHost hlinks renames_keystoreHost hreach
      hrefs
  have hs : scan keystoreHost (.ofString "keys") ".yaml" =
      .ok ⟨[⟨.ofString "keys/a.yaml", "yaml"⟩], []⟩ :=
    toOption_eq_some.1 (by decide +kernel)
  have hload : (load keystoreHost .sequential [] "log" (MetadataFile.load .builtin keystoreHost)
      "keys" ".yaml").result = .ok [keystoreCredential] := by
    rw [load_of_scan hs]
    simp only [Load.candidates, Load.sequential, Load.parseAll, load_keystoreHost]
    rfl
  obtain rfl := Except.ok.inj (hload.symm.trans hbefore)
  have hcredential : Credential.relocate (Path.child (.ofString "keys") "a.yaml")
      (Path.child (.ofString "keys") "b.YAML") keystoreCredential =
        keystoreCredential.withSource (.ofString "keys/b.YAML") := by
    decide +kernel
  rw [List.map_singleton, hcredential, List.perm_singleton] at hperm
  exact ⟨trivial, trivial, he, wellFormed_keystoreHost, hlinks, renames_keystoreHost, hreach, hrefs,
    hperm ▸ hafter⟩

/-! ### Paths that get too long -/

open MetadataFile (keyPairHost)

theorem wellFormed_keyPairHost : keyPairHost.files.WellFormed :=
  FileTree.wellFormed_of_entries (by decide +kernel)

/-- The key pair with a file name of twelve bytes. -/
def renamedHost : Host :=
  keyPairHost.move ["keys", "a.yaml"] ["keys", "renamed.yaml"]

theorem moved_renamedHost : ∃ bytes, keyPairHost.Moved renamedHost (["keys"] ++ ["a.yaml"])
    (["keys"] ++ ["renamed.yaml"]) bytes :=
  ⟨_, Host.moved_move wellFormed_keyPairHost rfl rfl⟩

theorem renames_longWay : Scan.Renames keyPairHost "yaml" ["keys"] longWay "a.yaml" "renamed.yaml" where
  directory := Scan.lookUp_of_locate hasNul_longWay (locate_longWay rfl rfl)
  file := ⟨.file rfl, by decide +kernel⟩
  visible := by decide
  free := rfl
  isFileName := by decide
  suffix := by decide +kernel
  visible_new := by decide

theorem candidates_longWay : (Scan.directory keyPairHost longWay "yaml").candidates =
    [⟨longWay.child "a.yaml", "yaml"⟩] := by
  rw [Scan.candidates_directory renames_longWay.directory]
  exact congrArg (List.map _) (by decide +kernel : _ = ["a.yaml"])

theorem candidates_longWay_renamed : (Scan.directory renamedHost longWay "yaml").candidates =
    [⟨longWay.child "renamed.yaml", "yaml"⟩] := by
  obtain ⟨_, hm⟩ := moved_renamedHost
  rw [Scan.candidates_directory (Scan.lookUp_moved hm renames_longWay.directory)]
  exact congrArg (List.map _) (by decide +kernel : _ = ["renamed.yaml"])

/-- The file is read on the long way as on the short one. -/
theorem readText_longWay : keyPairHost.readText (longWay.child "a.yaml") =
    keyPairHost.readText (.ofString "keys/a.yaml") := by
  have hfile : keyPairHost.files.at? (["keys"] ++ ["a.yaml"]) = some (.file _) := rfl
  have hsize : (toString (longWay.child "a.yaml")).utf8ByteSize ≤ Host.longestPath := by
    rw [utf8ByteSize_longWay_child (by decide)]
    decide
  have hread := (Host.read_child (locate_longWay rfl rfl) hasNul_longWay
    (wellFormed_keyPairHost.isFileName hfile) hfile).2 ⟨hsize, rfl⟩
  have hshort : keyPairHost.read (.ofString "keys/a.yaml") =
      keyPairHost.read (longWay.child "a.yaml") := by
    rw [hread]
    exact toOption_eq_some.1 (by decide +kernel)
  rw [Host.readText, Host.readText, hshort]

/-- With the longer name, the path is too long. -/
theorem load_longWay_renamed :
    (MetadataFile.load .builtin renamedHost (longWay.child "renamed.yaml")).toOption = none := by
  rw [Option.eq_none_iff_forall_not_mem]
  intro c hc
  obtain ⟨text, htext, -⟩ := bind_eq_ok.1 (toOption_eq_some.1 hc)
  obtain ⟨bytes, hread, -⟩ := bind_eq_ok.1 (mapError_eq_ok.1 htext)
  obtain ⟨-, l, hl⟩ := Host.read_eq_ok.1 hread
  rw [locate_longWay_child (by decide) (by decide)] at hl
  cases hl

/-- A credential is lost, and a failure logged instead, when the path of its file gets too long by the
new name. -/
theorem load_loses_renamed :
    let before := load keyPairHost .sequential [] "log" (MetadataFile.load .builtin keyPairHost)
      (toString longWay) "yaml"
    let after := load renamedHost .sequential [] "log" (MetadataFile.load .builtin renamedHost)
      (toString longWay) "yaml"
    Scan.normaliseExtension "yaml" = .ok "yaml" ∧ keyPairHost.files.WellFormed ∧
    (∀ l text, keyPairHost.files.at? l ≠ some (.link text)) ∧
    Scan.Renames keyPairHost "yaml" ["keys"] (.ofString (toString longWay)) "a.yaml" "renamed.yaml" ∧
    NotReferred keyPairHost renamedHost "yaml" (.ofString (toString longWay)) ["keys", "a.yaml"]
      ["keys", "renamed.yaml"] ∧
    (∃ c, before.result = .ok [c]) ∧ before.errors.length = 0 ∧
    after.result = .ok [] ∧ after.errors.length = 1 := by
  intro before after
  have he : Scan.normaliseExtension "yaml" = .ok "yaml" := toOption_eq_some.1 (by decide +kernel)
  have hreferences : MetadataFile.references keyPairHost (longWay.child "a.yaml") = [] := by
    rw [MetadataFile.references, readText_longWay]
    decide +kernel
  have hload : (MetadataFile.load .builtin keyPairHost (longWay.child "a.yaml")).toOption.isSome := by
    rw [MetadataFile.load, readText_longWay]
    decide +kernel
  obtain ⟨c, hc⟩ := Option.isSome_iff_exists.1 hload
  rw [Path.ofString_toString]
  have hscan (h : Host) : scan h (.ofString (toString longWay)) "yaml" =
      .ok (Scan.directory h longWay "yaml") := by
    rw [Path.ofString_toString, Scan.scan_of_normaliseExtension he]
  have hworkers : Mode.sequential.HasWorkers := trivial
  obtain ⟨hbefore, hnone⟩ := load_of_oneCandidate [] "log" hworkers (hscan keyPairHost)
    candidates_longWay (allLoggable_load keyPairHost _)
  obtain ⟨hafter, hone⟩ := load_of_oneCandidate [] "log" hworkers (hscan renamedHost)
    candidates_longWay_renamed (allLoggable_load renamedHost _)
  dsimp only at hbefore hnone hafter hone
  rw [hc, Option.toList_some] at hbefore hnone
  rw [load_longWay_renamed, Option.toList_none] at hafter hone
  refine ⟨he, wellFormed_keyPairHost, FileTree.at?_ne_link (by simp [keyPairHost]), renames_longWay,
    ?_, ⟨c, hbefore⟩, Nat.add_left_cancel hnone, hafter, (Nat.zero_add _).symm.trans hone⟩
  intro d hd q hq
  rw [candidates_longWay, List.mem_singleton] at hd
  rw [hd, hreferences] at hq
  cases hq

end Load

end Keyring
