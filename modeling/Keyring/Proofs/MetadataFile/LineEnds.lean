import Keyring.Proofs.Credential
import Keyring.Proofs.LineEnds
import Keyring.Proofs.MetadataFile.ReadsSame
import Keyring.Proofs.Secrets
/-!
# Metadata files with other line ends

The texts of two hosts may differ in their line ends (`Relined`), or password files in the line ends
after them (`Trailed`). The line ends of a text change nothing of what is loaded, be it a credential or
a failure, and those after a password change no credential (`load_lineEnds`).
-/

namespace Keyring

open Outcome Text

/-- What the files of two hosts may hold that differ in the line ends of texts only. -/
inductive Relined : Contents
  | same (l bytes) : Relined l bytes bytes
  | text {l cs ending} : '\r' ∉ cs → IsEnding ending →
      Relined l (Utf8.encode cs) (Utf8.encode (withLineEnds ending cs))

/-- What the files of two hosts may hold that differ in the line ends after them only; those are at the
places in `S`. -/
inductive Trailed (S : Location → Prop) : Contents
  | same (l bytes) : Trailed S l bytes bytes
  | trailed {l bytes run} : S l → (∀ c ∈ run, isLineEnd c = true) →
      Trailed S l bytes (bytes ++ Utf8.encode run)

variable {h h' : Host} {p : Path} {S : Location → Prop}

/-! ## Other line ends -/

/-- A text reads the same with other line ends. -/
theorem Host.readText_relined (halike : h.Alike Relined h') (p : Path) :
    h'.readText p = h.readText p := by
  refine (alike_eq_iff.1 ((Host.read_alike halike p).bind ?_)).symm
  rintro bytes bytes' ⟨l, -, hbytes⟩
  cases hbytes with
  | same => exact .of_eq (fun _ => rfl) rfl
  | text hcs hending =>
    rw [textOf_encode, textOf_encode, unifyLineEnds_withLineEnds hending hcs,
      unifyLineEnds_of_not_mem hcs]
    exact .ok rfl

namespace MetadataFile

/-- What is loaded depends on the texts of files only, and on where paths lead. -/
theorem load_congr (hread : ∀ q, h'.readText q = h.readText q)
    (hresolve : ∀ baseDir v, Metadata.resolve h' baseDir v = Metadata.resolve h baseDir v) (p : Path) :
    load .builtin h' p = load .builtin h p := by
  have hkeystore (m : Metadata) (baseDir source : Path) :
      Handler.createKeystore h' m baseDir source = Handler.createKeystore h m baseDir source := by
    simp only [Handler.createKeystore, Handler.readJson, Handler.readPassword, hread, hresolve]
  refine (alike_eq_iff.1 ?_).symm
  simp only [load, hread]
  refine .bind_self fun text _ => .bind_self fun d _ => .bind_self fun m _ => ?_
  unfold create
  split
  · exact .error _
  · refine .bind_self fun handler hhandler => Alike.mapError ?_ _
    rcases Registry.choose_builtin hhandler with rfl | rfl
    · exact .of_eq (fun _ => rfl) rfl
    · exact .of_eq (fun _ => rfl) (hkeystore m p.parent p).symm

end MetadataFile

/-! ## Line ends after a password -/

theorem Host.textOf_matched {bytes bytes' : List UInt8} {R R' : List Char → List Char → Prop}
    (hbytes : Matched R (Utf8.decode bytes) (Utf8.decode bytes'))
    (hR : ∀ cs cs', R cs cs' → R' (unifyLineEnds cs) (unifyLineEnds cs')) :
    Matched R' (textOf bytes) (textOf bytes') := by
  unfold textOf
  revert hbytes
  generalize Utf8.decode bytes = o, Utf8.decode bytes' = o'
  rintro (hcs | _)
  · exact .ok (hR _ _ hcs)
  · exact .error _ _

/-- What is read on both hosts differs in the line ends at the end, and in nothing outside `S`. -/
theorem Host.readText_trailed (halike : h.Alike (Trailed S) h') (p : Path) :
    Matched (fun cs cs' => trimLineEnds cs' = trimLineEnds cs ∧ (¬ h.LeadsInto p S → cs' = cs))
      (h.readText p) (h'.readText p) := by
  refine (Host.read_alike halike p).matched.bind ?_
  rintro bytes bytes' - ⟨l, hl, hbytes⟩
  cases hbytes with
  | same => exact textOf_matched matched_self fun cs cs' hcs => by simp [hcs]
  | @trailed _ _ run hS hrun =>
    refine textOf_matched (Utf8.decode_append bytes run) fun cs cs' hcs => ⟨?_, fun hout => ?_⟩
    · rw [hcs, trimLineEnds_unifyLineEnds_append hrun]
    · exact absurd ⟨l, _, hl, hS⟩ hout

theorem readsSame_trailed (halike : h.Alike (Trailed S) h') (hp : ¬ h.LeadsInto p S) :
    ReadsSame h h' p p :=
  (Host.readText_trailed halike p).mono fun _ _ _ hcs => (hcs.2 hp).symm

/-- A password is what comes before the line ends. -/
theorem Handler.readPassword_trailed (halike : h.Alike (Trailed S) h') (p : Path) :
    Matched Eq (readPassword h p) (readPassword h' p) :=
  ((Host.readText_trailed halike p).mapError _ _).bind fun _ _ _ hcs => .ok (by rw [hcs.1])

namespace MetadataFile

theorem load_trailed (halike : h.Alike (Trailed S) h') (hp : ¬ h.LeadsInto p S)
    (hkeystore : ∀ q, keystoreOf h p = .ok q → ¬ h.LeadsInto q S) :
    Matched Eq (load .builtin h p) (load .builtin h' p) := by
  have hmatched : Matched (fun c c' => c' = c.withSource p) (load .builtin h p)
      (load .builtin h' p) := by
    refine load_matched_of_namesSame rfl (Host.resolve_eq halike _) (readsSame_trailed halike hp) ?_
    intro cs d m hcs hd hm
    refine ⟨fun q hq => ?_, fun q _ => Handler.readPassword_trailed halike q⟩
    refine Handler.readJson_matched (readsSame_trailed halike (hkeystore q ?_))
    simp only [keystoreOf, hcs, bind, Except.bind, hd, hm]
    exact hq
  refine hmatched.mono fun c c' hc hc' => ?_
  rw [hc', Credential.withSource, ← (load_wellFormed hc).source_eq]

/-- A text with other line ends changes nothing of what a metadata file is loaded as, whatever files it
is in, and line ends after a text change no credential if they are in password files only. -/
theorem load_lineEnds (h h' : Host) (p : Path) :
    (h.Alike Relined h' → load .builtin h' p = load .builtin h p) ∧
    ∀ S, h.Alike (Trailed S) h' → ¬ h.LeadsInto p S →
      (∀ q, keystoreOf h p = .ok q → ¬ h.LeadsInto q S) →
      ∀ c, load .builtin h p = .ok c ↔ load .builtin h' p = .ok c := by
  constructor
  · intro halike
    exact load_congr (Host.readText_relined halike) (Host.resolve_eq halike) p
  · intro S halike hp hkeystore
    exact (load_trailed halike hp hkeystore).ok_iff

/-- The text of the metadata file of `keystoreHost`. -/
def keystoreMetadataText : List Char :=
  "type: file-keystore\nkeystoreFile: /k.json\nkeystorePasswordFile: /pw".toList

/-- The host with that text in lines that end in two characters. -/
def relinedHost : Host :=
  keystoreHost.withFile ["keys", "a.yaml"]
    (Utf8.encode (withLineEnds ['\r', '\n'] keystoreMetadataText))

/-- The host with more line ends after the password. -/
def trailedHost : Host :=
  keystoreHost.withFile ["pw"] ("a\rb\r\n".toUTF8.toList ++ Utf8.encode ['\r', '\r', '\n'])

theorem alike_relinedHost : keystoreHost.Alike Relined relinedHost := by
  have hold : keystoreHost.files.at? ["keys", "a.yaml"] =
      some (.file (Utf8.encode keystoreMetadataText)) := by
    decide +kernel
  exact Host.alike_withFile hold (.text (by decide +kernel) .crlf) fun m _ b => .same m b

theorem alike_trailedHost : keystoreHost.Alike (Trailed (· = ["pw"])) trailedHost :=
  Host.alike_withFile rfl (.trailed rfl (by simp [isLineEnd_iff])) fun m _ b => .same m b

theorem load_lineEnds_keystoreHost :
    keystoreHost.Alike Relined relinedHost ∧
    load .builtin relinedHost (.ofString "keys/a.yaml") = .ok keystoreCredential ∧
    keystoreHost.Alike (Trailed (· = ["pw"])) trailedHost ∧
    load .builtin trailedHost (.ofString "keys/a.yaml") = .ok keystoreCredential := by
  have hp : ¬ keystoreHost.LeadsInto (.ofString "keys/a.yaml") (· = ["pw"]) := by
    have hlocate : keystoreHost.locate (.ofString "keys/a.yaml") = .found ["keys", "a.yaml"] _ := rfl
    rw [Host.leadsInto_iff hlocate]
    decide
  have hkeystore : ∀ q, keystoreOf keystoreHost (.ofString "keys/a.yaml") = .ok q →
      ¬ keystoreHost.LeadsInto q (· = ["pw"]) := by
    intro q hq
    have hfile : keystoreOf keystoreHost (.ofString "keys/a.yaml") = .ok (.ofString "/k.json") :=
      toOption_eq_some.1 (by decide +kernel)
    obtain rfl := Except.ok.inj (hfile.symm.trans hq)
    have hlocate : keystoreHost.locate (.ofString "/k.json") = .found ["k.json"] _ := rfl
    rw [Host.leadsInto_iff hlocate]
    decide
  refine ⟨alike_relinedHost, ?_, alike_trailedHost, ?_⟩
  · rw [(load_lineEnds _ _ _).1 alike_relinedHost, load_keystoreHost]
  · exact ((load_lineEnds _ _ _).2 _ alike_trailedHost hp hkeystore _).1 load_keystoreHost

end MetadataFile

end Keyring
