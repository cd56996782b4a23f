import Keyring.Proofs.Yaml.Pattern
import Keyring.Proofs.Yaml.Single
import Mathlib.Data.List.Find
/-!
# Whole numbers stay texts

Metadata files leave the tag of whole numbers out. No other tag takes its place, since a whole number
has no dot, has a hyphen only in front of its digits, and starts with a sign or a digit: plain scalars
that are whole numbers by the rules of YAML are the texts they are written as, and all other plain
scalars have the tag that they have in any document (`resolve_wholeNumbers`).
-/

namespace Keyring.Yaml

open Pattern

variable {s t body : List Char}

/-- The text matches, as it is or without one line feed at its end. -/
def Pattern.IsLine (a : Pattern) (t : List Char) : Prop :=
  Matches a t ∨ ∃ s, t = s ++ ['\n'] ∧ Matches a s

/-- The text is a whole number: binary, octal, decimal, hexadecimal or in base sixty. -/
def IsWhole (t : List Char) : Prop :=
  intPattern.IsLine t

theorem ImplicitTag.matchesLine_iff {e : ImplicitTag} :
    e.matchesLine t = true ↔ e.pattern.IsLine t := by
  simp only [matchesLine, Bool.or_eq_true, Bool.and_eq_true, beq_iff_eq, accepts_iff, IsLine]
  refine or_congr Iff.rfl ⟨?_, ?_⟩
  · rintro ⟨hlast, h⟩
    exact ⟨_, (List.dropLast_append_getLast? _ hlast).symm, h⟩
  · rintro ⟨s, rfl, h⟩
    simpa using h

instance (a : Pattern) (t : List Char) : Decidable (Matches a t) :=
  decidable_of_iff _ accepts_iff

instance (t : List Char) : Decidable (IsWhole t) :=
  decidable_of_iff (ImplicitTag.matchesLine { tag := intTag, firsts := "", pattern := intPattern } t = true)
    ImplicitTag.matchesLine_iff

/-! ## The digits of a whole number -/

/-- What may follow the sign of a whole number. -/
def wholeForms : List (List Pattern) := [
  [text "0b", Pattern.some (oneOf "01_")],
  [char '0', Pattern.some (oneOf "01234567_")],
  [alt (char '0') (all [oneOf "123456789", many digitOrBar])],
  [text "0x", Pattern.some (oneOf "0123456789abcdefABCDEF_")],
  [oneOf "123456789", many digitOrBar, sexagesimals]]

theorem intPattern_eq : intPattern = any (wholeForms.map fun form => all (sign :: form)) := rfl

/-- Whether `c` may follow the sign of a whole number. -/
def isWholeChar (c : Char) : Bool :=
  isWordChar c && c != '-' || c == ':'

/-- A whole number without its sign. -/
structure IsUnsigned (body : List Char) : Prop where
  head : ∃ c rest, body = c :: rest ∧ c ∈ "0123456789".toList
  chars : ∀ c ∈ body, isWholeChar c = true
  last : body.getLast? ≠ some ':'

theorem isUnsigned_of_matches {form : List Pattern} (hform : form ∈ wholeForms)
    (h : Matches (all form) body) : IsUnsigned body := by
  have hnullable : ∀ form ∈ wholeForms, (all form).nullable = false := by decide
  have hstarts : ∀ form ∈ wholeForms, (all form).Starts (· ∈ "0123456789".toList) := by
    simp [wholeForms, Starts, all, text, Pattern.some, oneOf, char, digitOrBar, nullable]
  have hover : ∀ form ∈ wholeForms, (all form).Over (isWholeChar · = true) := by
    simp [wholeForms, Over, all, text, Pattern.some, oneOf, char, digitOrBar, sexagesimals, digit,
      Pattern.optional, isWholeChar, isWordChar]
  have hends : ∀ form ∈ wholeForms, (all form).Ends (· ≠ ':') := by
    simp [wholeForms, Ends, all, text, Pattern.some, oneOf, char, digitOrBar, sexagesimals, digit,
      Pattern.optional, nullable]
  constructor
  case head =>
    cases body with
    | nil =>
      have hempty := nullable_iff.2 h
      rw [hnullable form hform] at hempty
      cases hempty
    | cons c rest => exact ⟨c, rest, rfl, (hstarts form hform).of_matches h c rfl⟩
  case chars => exact (hover form hform).of_matches h
  case last => exact fun hlast => (hends form hform).of_matches h ':' hlast rfl

theorem IsUnsigned.not_mem {c : Char} (h : IsUnsigned body) (hc : isWholeChar c = false) :
    c ∉ body := by
  intro hmem
  rw [h.chars c hmem] at hc
  cases hc

/-- A whole number is its digits, which a sign may precede. -/
theorem exists_of_matches_int (h : Matches intPattern t) :
    ∃ front body, t = front ++ body ∧ (front = [] ∨ front = ['-'] ∨ front = ['+']) ∧
      IsUnsigned body := by
  rw [intPattern_eq] at h
  obtain ⟨_, hmem, h⟩ := exists_of_matches_any h
  obtain ⟨form, hform, rfl⟩ := List.mem_map.1 hmem
  change Matches (seq sign (all form)) t at h
  cases h with
  | seq hfront hbody =>
    refine ⟨_, _, rfl, ?_, isUnsigned_of_matches hform hbody⟩
    rcases matches_alt.1 hfront with hfront | hfront
    · cases hfront with
      | one hc => simpa using hc
    · cases hfront
      exact .inl rfl

/-! ## No other tag -/

theorem IsWhole.exists_append (h : IsWhole t) :
    ∃ front body ending, t = front ++ body ++ ending ∧
      (front = [] ∨ front = ['-'] ∨ front = ['+']) ∧ IsUnsigned body ∧
      (ending = [] ∨ ending = ['\n']) := by
  rcases h with h | ⟨s, rfl, h⟩
  · obtain ⟨front, body, rfl, hfront, hbody⟩ := exists_of_matches_int h
    exact ⟨front, body, [], by simp, hfront, hbody, .inl rfl⟩
  · obtain ⟨front, body, rfl, hfront, hbody⟩ := exists_of_matches_int h
    exact ⟨front, body, ['\n'], rfl, hfront, hbody, .inr rfl⟩

/-- Whether a whole number may start with `c`. -/
def isWholeStart (c : Char) : Bool :=
  "-+0123456789".toList.contains c

theorem IsWhole.exists_cons (h : IsWhole t) : ∃ c rest, t = c :: rest ∧ isWholeStart c = true := by
  obtain ⟨front, body, ending, rfl, hfront, hbody, -⟩ := h.exists_append
  obtain ⟨c, rest, rfl, hc⟩ := hbody.head
  rcases hfront with rfl | rfl | rfl
  · refine ⟨c, _, rfl, List.contains_iff_mem.2 ?_⟩
    exact List.mem_cons_of_mem _ (List.mem_cons_of_mem _ hc)
  · exact ⟨'-', _, rfl, by decide⟩
  · exact ⟨'+', _, rfl, by decide⟩

theorem IsWhole.dot_not_mem (h : IsWhole t) : '.' ∉ t := by
  obtain ⟨front, body, ending, rfl, hfront, hbody, hending⟩ := h.exists_append
  have hdot : '.' ∉ body := hbody.not_mem (by decide)
  rcases hfront with rfl | rfl | rfl <;> rcases hending with rfl | rfl <;> simpa using hdot

/-- A hyphen is only in front. -/
theorem IsWhole.hyphen_not_mem {c : Char} {rest : List Char} (h : IsWhole (c :: rest))
    (hc : c ∈ "0123456789".toList) : '-' ∉ c :: rest := by
  obtain ⟨front, body, ending, ht, hfront, hbody, hending⟩ := h.exists_append
  have hhyphen : '-' ∉ body := hbody.not_mem (by decide)
  rcases hfront with rfl | rfl | rfl
  · rw [ht]
    rcases hending with rfl | rfl <;> simpa using hhyphen
  · obtain ⟨rfl, -⟩ := List.cons.inj ht
    exact absurd hc (by decide)
  · obtain ⟨rfl, -⟩ := List.cons.inj ht
    exact absurd hc (by decide)

theorem Pattern.IsLine.mem {a : Pattern} {c : Char} (hmem : ∀ s, Matches a s → c ∈ s)
    (h : a.IsLine t) : c ∈ t := by
  rcases h with h | ⟨s, rfl, h⟩
  · exact hmem t h
  · exact List.mem_append_left _ (hmem s h)

/-- A whole number has no other tag than that of whole numbers. -/
theorem IsWhole.not_claims (h : IsWhole t) {e : ImplicitTag} (he : e ∈ coreTags)
    (hne : e.tag ≠ intTag) : e.claims t = false := by
  obtain ⟨c, rest, rfl, hc⟩ := h.exists_cons
  rw [ImplicitTag.claims, Bool.and_eq_false_iff]
  simp only [coreTags, List.mem_cons, List.not_mem_nil, or_false] at he
  rcases he with rfl | rfl | rfl | rfl | rfl | rfl | rfl | rfl
  · exact .inl (ImplicitTag.not_mayStart hc (by decide +kernel))
  · refine .inr (Bool.eq_false_iff.2 fun hline => h.dot_not_mem ?_)
    exact (ImplicitTag.matchesLine_iff.1 hline).mem fun _ => dot_mem_of_float
  · exact absurd rfl hne
  · exact .inl (ImplicitTag.not_mayStart hc (by decide +kernel))
  · exact .inl (ImplicitTag.not_mayStart hc (by decide +kernel))
  · -- A time starts with a digit, and then there is no hyphen.
    by_cases hdigit : c ∈ "0123456789".toList
    · refine .inr (Bool.eq_false_iff.2 fun hline => h.hyphen_not_mem hdigit ?_)
      exact (ImplicitTag.matchesLine_iff.1 hline).mem fun _ => hyphen_mem_of_timestamp
    · exact .inl (Bool.eq_false_iff.2 (mt List.contains_iff_mem.1 hdigit))
  · exact .inl (ImplicitTag.not_mayStart hc (by decide +kernel))
  · exact .inl (ImplicitTag.not_mayStart hc (by decide +kernel))

theorem IsWhole.exists_claims (h : IsWhole t) : ∃ e ∈ coreTags, e.tag = intTag ∧ e.claims t = true := by
  obtain ⟨c, rest, rfl, hc⟩ := h.exists_cons
  refine ⟨{ tag := intTag, firsts := "-+0123456789", pattern := intPattern }, by simp [coreTags],
    rfl, ?_⟩
  exact Bool.and_eq_true_iff.2 ⟨hc, ImplicitTag.matchesLine_iff.2 h⟩

/-- Only whole numbers have the tag of whole numbers. -/
theorem isWhole_of_claims {e : ImplicitTag} (he : e ∈ coreTags) (htag : e.tag = intTag)
    (hclaims : e.claims t = true) : IsWhole t := by
  simp only [coreTags, List.mem_cons, List.not_mem_nil, or_false] at he
  have hline := (Bool.and_eq_true_iff.1 hclaims).2
  rcases he with rfl | rfl | rfl | rfl | rfl | rfl | rfl | rfl
  case inr.inr.inl => exact ImplicitTag.matchesLine_iff.1 hline
  all_goals exact absurd htag (by decide)

/-! ## Tags -/

theorem IsWhole.resolve_coreTags (h : IsWhole t) : resolve coreTags t = intTag := by
  obtain ⟨e, he, htag, hclaims⟩ := h.exists_claims
  obtain ⟨d, hd⟩ : ∃ d, coreTags.find? (·.claims t) = .some d :=
    Option.isSome_iff_exists.1 (List.find?_isSome.2 ⟨e, he, hclaims⟩)
  have hdtag : d.tag = intTag := by
    by_contra hne
    have hdclaims := List.find?_some hd
    rw [h.not_claims (List.mem_of_find?_eq_some hd) hne] at hdclaims
    cases hdclaims
  rw [resolve, hd]
  exact hdtag

theorem IsWhole.resolve_metadataTags (h : IsWhole t) : resolve metadataTags t = strTag := by
  have hnone : metadataTags.find? (·.claims t) = none := by
    rw [List.find?_eq_none]
    intro e he
    obtain ⟨he, hne⟩ := List.mem_filter.1 he
    rw [h.not_claims he (by simpa using hne)]
    exact Bool.false_ne_true
  rw [resolve, hnone]
  rfl

/-- What is no whole number has the tag that it has in any document. -/
theorem resolve_of_not_isWhole (h : ¬ IsWhole t) : resolve metadataTags t = resolve coreTags t := by
  have hfind : metadataTags.find? (·.claims t) = coreTags.find? (·.claims t) := by
    rw [metadataTags, List.find?_filter]
    refine List.find?_congr fun e he => ?_
    by_cases htag : e.tag = intTag
    · have hclaims : e.claims t = false :=
        Bool.eq_false_iff.2 fun hclaims => h (isWhole_of_claims he htag hclaims)
      simp [hclaims]
    · simp [htag]
  rw [resolve, hfind, resolve]

/-! ## Texts -/

theorem isSingle_of_matches_int (h : Matches intPattern t) : IsSingle t := by
  obtain ⟨front, body, rfl, hfront, hbody⟩ := exists_of_matches_int h
  obtain ⟨c, rest, rfl, hc⟩ := hbody.head
  have hword : isWordChar c = true ∧ c ≠ '-' := by
    have hall : ("0123456789".toList.all fun d => isWordChar d && d != '-') = true := by decide
    simpa using List.all_eq_true.1 hall c hc
  constructor
  case starts =>
    rcases hfront with rfl | rfl | rfl
    · exact .word hword.1 hword.2
    · exact .signed (.inl rfl) hword.1 hword.2
    · exact .signed (.inr rfl) hword.1 hword.2
  case chars =>
    have hchars : ∀ d ∈ c :: rest, isSingleChar d = true := by
      intro d hd
      have hwhole := hbody.chars d hd
      simp only [isWholeChar, Bool.or_eq_true, Bool.and_eq_true] at hwhole
      rcases hwhole with ⟨hd, -⟩ | hd <;> simp [isSingleChar, hd]
    rcases hfront with rfl | rfl | rfl
    · exact hchars
    · exact List.forall_mem_cons.2 ⟨by decide, hchars⟩
    · exact List.forall_mem_cons.2 ⟨by decide, hchars⟩
  case last =>
    rw [List.getLast?_append_of_ne_nil _ (List.cons_ne_nil c rest)]
    exact hbody.last

/-- A plain scalar that is a whole number is read as the text that it is, and every other plain scalar
has the tag that it has in any document. -/
theorem resolve_wholeNumbers (t : List Char) :
    (IsWhole t → resolve coreTags t = intTag ∧ resolve metadataTags t = strTag ∧
      ∀ (g : Graph) (i : Nat) (n : Node), n.tag = Build.scalarTag none t true →
        n.content = .scalar t → Make.scalarValue g i n = .ok (.scalar (.str (String.ofList t)) none)) ∧
    (Matches intPattern t →
      Document.read t = .ok ⟨#[], .scalar (.str (String.ofList t)) none⟩) ∧
    (¬ IsWhole t → resolve metadataTags t = resolve coreTags t) := by
  refine ⟨fun h => ⟨h.resolve_coreTags, h.resolve_metadataTags, fun g i n htag hc => ?_⟩, fun h => ?_,
    resolve_of_not_isWhole⟩
  · exact Make.scalarValue_text (htag.trans h.resolve_metadataTags) hc g
  · exact read_single (isSingle_of_matches_int h) (IsWhole.resolve_metadataTags (.inl h))

theorem resolve_wholeNumbers_sexagesimal :
    Matches intPattern "-1_0:59".toList ∧ resolve coreTags "-1_0:59".toList = intTag ∧
    resolve metadataTags "-1_0:59".toList = strTag ∧
    Make.scalarValue #[] 0 ⟨strTag, .scalar "-1_0:59".toList, ⟨0, 0, 0⟩⟩ =
      .ok (.scalar (.str "-1_0:59") none) ∧
    Document.read "-1_0:59".toList = .ok ⟨#[], .scalar (.str "-1_0:59") none⟩ ∧
    ¬ IsWhole "-1_0:59.5".toList ∧
    resolve metadataTags "-1_0:59.5".toList = resolve coreTags "-1_0:59.5".toList := by
  have hmatches : Matches intPattern "-1_0:59".toList := by decide +kernel
  have hnot : ¬ IsWhole "-1_0:59.5".toList := by decide +kernel
  obtain ⟨hwhole, hread, -⟩ := resolve_wholeNumbers "-1_0:59".toList
  obtain ⟨-, -, hother⟩ := resolve_wholeNumbers "-1_0:59.5".toList
  obtain ⟨hcore, hmetadata, hvalue⟩ := hwhole (.inl hmatches)
  exact ⟨hmatches, hcore, hmetadata, hvalue #[] 0 _ hmetadata.symm rfl, hread hmatches, hnot,
    hother hnot⟩

end Keyring.Yaml
