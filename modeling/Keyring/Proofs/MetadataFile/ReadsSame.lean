import Keyring.Proofs.MetadataFile
import Keyring.Proofs.Registry
/-!
# Metadata files that read the same

A metadata file gives the same credential on two hosts, or by two paths, if its text reads the same and
so do the files that it refers to (`load_matched`). The credential tells the path, and that is all that
can differ.
-/

namespace Keyring

open Outcome

/-- The credential as it is loaded from the file at `p`. -/
def Credential.withSource (p : Path) (c : Credential) : Credential :=
  { c with source? := some p }

variable {h h' : Host} {p p' : Path}

/-- The text of a file is read on both hosts, or it cannot be read on either. -/
def ReadsSame (h h' : Host) (p p' : Path) : Prop :=
  Matched Eq (h.readText p) (h'.readText p')

theorem readsSame_of_read (hread : Matched Eq (h.read p) (h'.read p')) : ReadsSame h h' p p' :=
  hread.bind_eq fun _ _ => matched_self

namespace Handler

theorem readJson_matched (hp : ReadsSame h h' p p) : Matched Eq (readJson h p) (readJson h' p) :=
  hp.bind_eq fun _ _ => matched_self

theorem readPassword_matched (hp : ReadsSame h h' p p) :
    Matched Eq (readPassword h p) (readPassword h' p) :=
  (hp.mapError _ _).bind_eq fun _ _ => matched_self

/-- A key pair gives the same credential wherever it is read. -/
theorem createRaw_matched (m : Metadata) (p p' : Path) :
    Matched (fun c c' => c' = c.withSource p') (createRaw m p) (createRaw m p') := by
  unfold createRaw
  refine matched_self.bind_eq fun _ _ => matched_self.bind_eq fun _ _ =>
    matched_self.bind_eq fun _ _ => matched_self.bind_eq fun _ _ => ?_
  exact .ok rfl

/-- The metadata keys that name files. -/
def fileKeys : List String :=
  ["keystoreFile", "keystorePasswordFile"]

/-- The keystore and the password that a mapping names are the same on both hosts. -/
structure NamesSame (h h' : Host) (m : Metadata) (baseDir : Path) : Prop where
  keystore : ∀ q, (m.require "keystoreFile").bind (Metadata.resolve h baseDir) = .ok q →
    Matched Eq (readJson h q) (readJson h' q)
  password : ∀ q, (m.require "keystorePasswordFile").bind (Metadata.resolve h baseDir) = .ok q →
    Matched Eq (readPassword h q) (readPassword h' q)

theorem namesSame_of_readsSame {m : Metadata} {baseDir : Path}
    (hnamed : ∀ key ∈ fileKeys, ∀ q, (m.require key).bind (Metadata.resolve h baseDir) = .ok q →
      ReadsSame h h' q q) : NamesSame h h' m baseDir where
  keystore q hq := readJson_matched (hnamed _ (by decide) q hq)
  password q hq := readPassword_matched (hnamed _ (by decide) q hq)

/-- A keystore gives the same credential if it is the same and so is its password. -/
theorem createKeystore_matched {m : Metadata} {baseDir : Path}
    (hresolve : ∀ v, Metadata.resolve h' baseDir v = Metadata.resolve h baseDir v)
    (hsame : NamesSame h h' m baseDir) (p p' : Path) :
    Matched (fun c c' => c' = c.withSource p') (createKeystore h m baseDir p)
      (createKeystore h' m baseDir p') := by
  unfold createKeystore
  simp only [hresolve]
  refine matched_self.bind_eq fun v hv => matched_self.bind_eq fun keystoreFile hfile =>
    matched_self.bind_eq fun w hw => matched_self.bind_eq fun passwordFile hpassword => ?_
  have hkeystore := hsame.keystore keystoreFile (by rw [hv]; exact hfile)
  have hword := hsame.password passwordFile (by rw [hw]; exact hpassword)
  refine (hkeystore.mapError _ _).bind_eq fun _ _ => matched_self.bind_eq fun _ _ =>
    hword.bind_eq fun _ _ => ?_
  exact .ok rfl

end Handler

namespace MetadataFile

theorem readDocument_matched (p p' : Path) (text : List Char) :
    Matched Eq (readDocument p text) (readDocument p' text) := by
  unfold readDocument
  cases Yaml.Document.read text with
  | ok d => exact .ok rfl
  | error fault => exact .error _ _

theorem mappingOf_matched (p p' : Path) (d : Yaml.Document) :
    Matched Eq (mappingOf p d) (mappingOf p' d) := by
  unfold mappingOf
  cases d.entries? with
  | some entries => exact .ok rfl
  | none => exact .error _ _

theorem create_matched {m : Metadata} (hparent : p'.parent = p.parent)
    (hresolve : ∀ v, Metadata.resolve h' p.parent v = Metadata.resolve h p.parent v)
    (hsame : Handler.NamesSame h h' m p.parent) :
    Matched (fun c c' => c' = c.withSource p') (create .builtin h p m) (create .builtin h' p' m) := by
  unfold create
  rw [hparent]
  split
  · exact .error _ _
  · refine matched_self.bind_eq fun handler hhandler => Matched.mapError ?_ _ _
    rcases Registry.choose_builtin hhandler with rfl | rfl
    · exact Handler.createRaw_matched m p p'
    · exact Handler.createKeystore_matched hresolve hsame p p'

theorem mem_references {cs : List Char} {d : Yaml.Document} {m : Metadata} {key : String} {q : Path}
    (hread : h.readText p = .ok cs) (hd : readDocument p cs = .ok d) (hm : mappingOf p d = .ok m)
    (hkey : key ∈ Handler.fileKeys)
    (hq : (m.require key).bind (Metadata.resolve h p.parent) = .ok q) : q ∈ references h p := by
  simp only [references, hread, bind, Except.bind, hd, hm]
  exact List.mem_filterMap.2 ⟨key, hkey, toOption_eq_some.2 hq⟩

/-- A metadata file gives the same credential on both hosts, but for its path, if it reads the same and
what it names is the same. -/
theorem load_matched_of_namesSame (hparent : p'.parent = p.parent)
    (hresolve : ∀ v, Metadata.resolve h' p.parent v = Metadata.resolve h p.parent v)
    (hread : ReadsSame h h' p p')
    (hsame : ∀ cs d m, h.readText p = .ok cs → readDocument p cs = .ok d → mappingOf p d = .ok m →
      Handler.NamesSame h h' m p.parent) :
    Matched (fun c c' => c' = c.withSource p') (load .builtin h p) (load .builtin h' p') :=
  (hread.mapError _ _).bind_eq fun cs hcs => (readDocument_matched p p' cs).bind_eq fun d hd =>
    (mappingOf_matched p p' d).bind_eq fun m hm =>
      create_matched hparent hresolve (hsame cs d m (mapError_eq_ok.1 hcs) hd hm)

/-- A metadata file gives the same credential on both hosts, but for its path, if it reads the same and
so do the files that it refers to. -/
theorem load_matched (hparent : p'.parent = p.parent)
    (hresolve : ∀ v, Metadata.resolve h' p.parent v = Metadata.resolve h p.parent v)
    (hread : ReadsSame h h' p p') (hrefs : ∀ q ∈ references h p, ReadsSame h h' q q) :
    Matched (fun c c' => c' = c.withSource p') (load .builtin h p) (load .builtin h' p') :=
  load_matched_of_namesSame hparent hresolve hread fun _ _ _ hcs hd hm =>
    Handler.namesSame_of_readsSame fun _ hkey q hq => hrefs q (mem_references hcs hd hm hkey hq)

end MetadataFile

end Keyring
