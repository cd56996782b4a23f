import Keyring.Proofs.Lower
import Keyring.Proofs.Scan.Listing
import Keyring.Proofs.Trim
/-!
# Files by their own extension

A file whose name is a stem, a dot and an extension is found by this extension, but for capital sigmas
(`scan_finds_iff`): a sigma at the start of the extension has the final form in the name if the stem
ends in a letter, and in the extension alone it has not (`scan_misses_sigma`).
-/

namespace Keyring.Scan

open Text

variable {h : Host} {l : Location} {p : Path} {stem e : String}

/-- An extension as users give it: not empty, without a leading dot and without white space at its
ends. -/
structure IsExtension (e : String) : Prop where
  ne_empty : e ≠ ""
  dot : isDotName e = false
  head : ∀ c ∈ e.toList.head?, isBlank c = false
  last : ∀ c ∈ e.toList.getLast?, isBlank c = false

instance (e : String) : Decidable (IsExtension e) :=
  decidable_of_iff (e ≠ "" ∧ isDotName e = false ∧ e.toList.head?.all (!isBlank ·) = true ∧
      e.toList.getLast?.all (!isBlank ·) = true) <| by
    simp only [Option.all_eq_true, Bool.not_eq_true']
    exact ⟨fun ⟨hne, hdot, hhead, hlast⟩ => ⟨hne, hdot, hhead, hlast⟩,
      fun he => ⟨he.ne_empty, he.dot, he.head, he.last⟩⟩

theorem normaliseExtension_eq (he : IsExtension e) : normaliseExtension e = .ok (lower e) := by
  have hdrop : dropDot e.toList = e.toList := by
    unfold dropDot
    split
    · next cs hcs =>
      have hdot := he.dot
      rw [isDotName, hcs] at hdot
      cases hdot
    · rfl
  have hne : e.toList.isEmpty = false := by
    rw [List.isEmpty_eq_false_iff, Ne, String.toList_eq_nil_iff]
    exact he.ne_empty
  rw [normaliseExtension, strip, trim_eq_self he.head he.last, hdrop, hne, String.ofList_toList]
  rfl

/-- A stem that a visible file can have. -/
structure IsStem (stem : String) : Prop where
  ne_empty : stem ≠ ""
  dot : isDotName stem = false

theorem toList_name (stem e : String) : (stem ++ "." ++ e).toList = stem.toList ++ '.' :: e.toList := by
  rw [String.toList_append, String.toList_append, List.append_assoc]
  rfl

theorem IsStem.exists_cons (hstem : IsStem stem) : ∃ c cs, stem.toList = c :: cs ∧ c ≠ '.' := by
  obtain ⟨c, cs, hcs⟩ := List.exists_cons_of_ne_nil (mt String.toList_eq_nil_iff.1 hstem.ne_empty)
  refine ⟨c, cs, hcs, fun hc => ?_⟩
  have hdot := hstem.dot
  rw [isDotName, hcs, hc] at hdot
  cases hdot

theorem head?_name (hstem : IsStem stem) : (stem ++ "." ++ e).toList.head? ≠ some '.' := by
  obtain ⟨c, cs, hcs, hc⟩ := hstem.exists_cons
  simpa [toList_name, hcs] using hc

theorem hasExtension_iff : hasExtension (lower e) (stem ++ "." ++ e) = true ↔
    ¬ TurnsFinal stem.toList e.toList := by
  rw [hasExtension, List.isSuffixOf_iff_suffix, lower, lower, String.toList_ofList,
    String.toList_ofList, toList_name, suffix_lower_iff]

/-! ## What is found -/

/-- A visible file is a candidate if its name has the extension. -/
theorem mem_candidates_iff {name : String} (hfiles : h.files.WellFormed)
    (hd : lookUp h p = .directory l) (hfile : IsRegular h l p name)
    (hdot : name.toList.head? ≠ some '.') :
    ⟨p.child name, e⟩ ∈ (directory h p e).candidates ↔ hasExtension e name = true := by
  rw [candidates_directory hd, List.mem_map, hasExtension, List.isSuffixOf_iff_suffix]
  constructor
  · rintro ⟨other, hother, hpath⟩
    obtain ⟨hmatches, -⟩ := (mem_filter_accepts hfiles).1 hother
    have hsame : p.child other = p.child name := congrArg Candidate.path hpath
    rw [← (Path.child_inj (hmatches.isRegular.isName hfiles) (hfile.isName hfiles)).1 hsame]
    exact hmatches.suffix
  · exact fun hsuffix => ⟨name, (mem_filter_accepts hfiles).2 ⟨⟨hfile, hsuffix⟩, hdot⟩, rfl⟩

/-- A file called by a stem, a dot and an extension is found by the extension, unless a capital sigma of
the extension has another form in the name. -/
theorem scan_finds_iff (h : Host) (p : Path) (l : Location) (stem e : String)
    (hfiles : h.files.WellFormed) (hnul : hasNul (toString p) = false)
    (hp : h.locate p = .found l .directory) (hstem : IsStem stem) (he : IsExtension e)
    (hfile : IsRegular h l p (stem ++ "." ++ e)) :
    ∃ scanned, scan h p e = .ok scanned ∧
      (⟨p.child (stem ++ "." ++ e), lower e⟩ ∈ scanned.candidates ↔
        ¬ TurnsFinal stem.toList e.toList) := by
  refine ⟨directory h p (lower e), scan_of_normaliseExtension (normaliseExtension_eq he) h p, ?_⟩
  rw [mem_candidates_iff hfiles (lookUp_of_locate hnul hp) hfile (head?_name hstem), hasExtension_iff]

/-- A directory with a file whose extension is a capital sigma, and another file. -/
def sigmaHost : Host where
  files := ⟨[(["k"], .directory), (["k", "x.Σ"], .file []), (["k", "x.ΣΑ"], .file [])], by decide⟩
  workingDirectory := []
  home := "/home"

theorem wellFormed_sigmaHost : sigmaHost.files.WellFormed :=
  FileTree.wellFormed_of_entries (by decide)

/-- A sigma with a letter after it has the same form in the name. -/
theorem scan_finds_sigmaHost :
    sigmaHost.files.WellFormed ∧ hasNul (toString (Path.ofString "k")) = false ∧
    sigmaHost.locate (.ofString "k") = .found ["k"] .directory ∧ IsStem "x" ∧ IsExtension "ΣΑ" ∧
    IsRegular sigmaHost ["k"] (.ofString "k") "x.ΣΑ" ∧ ¬ TurnsFinal ['x'] ['Σ', 'Α'] ∧
    ∃ scanned, scan sigmaHost (.ofString "k") "ΣΑ" = .ok scanned ∧
      ⟨.child (.ofString "k") "x.ΣΑ", lower "ΣΑ"⟩ ∈ scanned.candidates := by
  have he : IsExtension "ΣΑ" := by decide
  have hfile : IsRegular sigmaHost ["k"] (.ofString "k") "x.ΣΑ" := .file rfl
  have hnot : ¬ TurnsFinal ['x'] ['Σ', 'Α'] := by
    rw [← suffix_lower_iff]
    decide +kernel
  obtain ⟨scanned, hscan, hfinds⟩ := scan_finds_iff sigmaHost (.ofString "k") ["k"] "x" "ΣΑ"
    wellFormed_sigmaHost (by decide) rfl ⟨by decide, by decide⟩ he hfile
  exact ⟨wellFormed_sigmaHost, by decide, rfl, ⟨by decide, by decide⟩, he, hfile, hnot, scanned,
    hscan, hfinds.2 hnot⟩

/-- A capital sigma is another one in the name than alone, and the file is not found by it. -/
theorem scan_misses_sigma :
    sigmaHost.files.WellFormed ∧ sigmaHost.locate (.ofString "k") = .found ["k"] .directory ∧
    IsStem "x" ∧ IsExtension "Σ" ∧ sigmaHost.files.at? ["k", "x" ++ "." ++ "Σ"] = some (.file []) ∧
    lower "Σ" = "σ" ∧ lower "x.Σ" = "x.ς" ∧
    ∃ scanned, scan sigmaHost (.ofString "k") "Σ" = .ok scanned ∧
      ⟨.child (.ofString "k") ("x" ++ "." ++ "Σ"), "σ"⟩ ∉ scanned.candidates := by
  have he : IsExtension "Σ" := by decide
  have hlower : lower "Σ" = "σ" := by decide +kernel
  have hd : lookUp sigmaHost (.ofString "k") = .directory ["k"] := lookUp_of_locate (by decide) rfl
  refine ⟨wellFormed_sigmaHost, rfl, ⟨by decide, by decide⟩, he, rfl, hlower, by decide +kernel, _,
    scan_of_normaliseExtension (normaliseExtension_eq he) sigmaHost _, ?_⟩
  rw [hlower, mem_candidates_iff wellFormed_sigmaHost hd (.file rfl) (by decide)]
  decide +kernel

end Keyring.Scan
