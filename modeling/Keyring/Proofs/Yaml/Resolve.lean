import Keyring.Proofs.Yaml.Word
import Keyring.Yaml.Tag
/-!
# Keys are texts

A plain scalar of hex digits, with or without a mark in front, is a text (`resolve_key`): numbers with
a fraction need a dot, times need a hyphen, the words for true and false have letters that are no
digits, and the other tags need another first character.
-/

namespace Keyring.Yaml

/-! ## What the texts of a pattern hold -/

namespace Pattern

variable {s : List Char}

theorem exists_of_matches_any {parts : List Pattern} (h : Matches (any parts) s) :
    ∃ a ∈ parts, Matches a s := by
  induction parts with
  | nil => exact absurd h not_matches_never
  | cons a parts ih =>
    rcases matches_alt.1 h with h | h
    · exact ⟨a, List.mem_cons_self, h⟩
    · obtain ⟨b, hb, h⟩ := ih h
      exact ⟨b, List.mem_cons_of_mem _ hb, h⟩

/-- A character that is one of the parts is in the text. -/
theorem mem_of_matches_all {c : Char} {parts : List Pattern} (h : Matches (all parts) s)
    (hc : char c ∈ parts) : c ∈ s := by
  induction parts generalizing s with
  | nil => cases hc
  | cons a parts ih =>
    change Matches (seq a (all parts)) s at h
    cases h with
    | seq hfirst hrest =>
      rcases List.mem_cons.1 hc with rfl | hc
      · cases hfirst with
        | one hd => rw [eq_of_beq hd]; simp
      · exact List.mem_append_right _ (ih hrest hc)

theorem eq_of_matches_text {w : String} (h : Matches (text w) s) : s = w.toList := by
  unfold text at h
  generalize w.toList = cs at h ⊢
  induction cs generalizing s with
  | nil => cases h; rfl
  | cons c cs ih =>
    change Matches (seq (char c) _) s at h
    cases h with
    | seq hfirst hrest =>
      cases hfirst with
      | one hd => rw [eq_of_beq hd, ih hrest]; rfl

/-- If every word has a character with a property, so does a text that is one of the words. -/
theorem exists_of_matches_words {words : List String} {p : Char → Bool}
    (hp : (words.all fun w => w.toList.any p) = true) (h : Matches (any (words.map text)) s) :
    ∃ c ∈ s, p c = true := by
  obtain ⟨a, ha, hs⟩ := exists_of_matches_any h
  obtain ⟨w, hw, rfl⟩ := List.mem_map.1 ha
  rw [eq_of_matches_text hs]
  exact List.any_eq_true.1 (List.all_eq_true.1 hp w hw)

end Pattern

open Pattern

theorem dot_mem_of_float {s : List Char} (h : Matches floatPattern s) : '.' ∈ s := by
  obtain ⟨a, ha, hs⟩ := exists_of_matches_any h
  simp only [List.mem_cons, List.not_mem_nil, or_false] at ha
  rcases ha with rfl | rfl | rfl | rfl | rfl <;> exact mem_of_matches_all hs (by simp)

theorem hyphen_mem_of_timestamp {s : List Char} (h : Matches timestampPattern s) : '-' ∈ s := by
  obtain ⟨a, ha, hs⟩ := exists_of_matches_any h
  simp only [List.mem_cons, List.not_mem_nil, or_false] at ha
  rcases ha with rfl | rfl <;> exact mem_of_matches_all hs (by simp)

/-! ## Keys -/

/-- Whether `c` may stand in a key: a hex digit, or the letter of the mark in front. -/
def isKeyChar (c : Char) : Bool :=
  isHexDigit c || c == 'x' || c == 'X'

theorem isWordChar_of_isHexDigit {c : Char} (hc : isHexDigit c = true) : isWordChar c = true := by
  simp only [isHexDigit, Hex.digit?, Bool.and_eq_true, decide_eq_true_eq, Char.le_def,
    UInt32.le_iff_toNat_le] at hc
  simp only [isWordChar, Bool.or_eq_true, Bool.and_eq_true, decide_eq_true_eq, beq_iff_eq,
    Char.le_def, UInt32.le_iff_toNat_le]
  have hf : 'f'.val.toNat = 102 := rfl
  have hz : 'z'.val.toNat = 122 := rfl
  have hF : 'F'.val.toNat = 70 := rfl
  have hZ : 'Z'.val.toNat = 90 := rfl
  split at hc
  · omega
  · split at hc
    · omega
    · split at hc
      · omega
      · cases hc

theorem isWordChar_of_isKeyChar {c : Char} (hc : isKeyChar c = true) : isWordChar c = true := by
  simp only [isKeyChar, Bool.or_eq_true, beq_iff_eq] at hc
  rcases hc with (hc | rfl) | rfl
  · exact isWordChar_of_isHexDigit hc
  · decide
  · decide

/-- Each word for true or false has a letter that is in no key. -/
theorem exists_not_isKeyChar {s : List Char} (h : Matches boolPattern s) :
    ∃ c ∈ s, isKeyChar c = false := by
  obtain ⟨c, hc, hkey⟩ := exists_of_matches_words (p := fun c => !isKeyChar c) (by decide +kernel) h
  exact ⟨c, hc, by simpa using hkey⟩

/-- A tag whose texts all start otherwise is not the tag of a text. -/
theorem ImplicitTag.not_mayStart {p : Char → Bool} {t : ImplicitTag} {c : Char} {w : List Char}
    (hc : p c = true) (ht : t.firsts.toList.all (!p ·) = true) : t.mayStart (c :: w) = false := by
  rw [mayStart, Bool.eq_false_iff, Ne, List.contains_iff_mem]
  intro hm
  have := List.all_eq_true.1 ht c hm
  simp [hc] at this

/-- A text of key characters is no number, time or truth value. -/
theorem resolve_key {w : List Char} (hne : w ≠ []) (hw : ∀ c ∈ w, isKeyChar c = true) :
    resolve metadataTags w = strTag := by
  obtain ⟨x, w', rfl⟩ := List.exists_cons_of_ne_nil hne
  have hx := hw x List.mem_cons_self
  have hnot {c : Char} (hc : isKeyChar c = false) : c ∉ x :: w' := fun hm => by
    rw [hw c hm] at hc
    cases hc
  have hline (t : ImplicitTag) (hm : ¬ Matches t.pattern (x :: w')) :
      t.matchesLine (x :: w') = false := by
    have hlast : (x :: w').getLast? ≠ some '\n' := fun hl =>
      hnot (by decide) (List.mem_of_getLast? hl)
    rw [ImplicitTag.matchesLine, Bool.eq_false_iff.2 (mt accepts_iff.1 hm),
      beq_eq_false_iff_ne.2 hlast]
    rfl
  have hnone : metadataTags.find? (·.claims (x :: w')) = none := by
    rw [List.find?_eq_none]
    intro t ht
    obtain ⟨ht, hint⟩ := List.mem_filter.1 ht
    rw [Bool.not_eq_true, ImplicitTag.claims, Bool.and_eq_false_iff]
    simp only [coreTags, List.mem_cons, List.not_mem_nil, or_false] at ht
    rcases ht with rfl | rfl | rfl | rfl | rfl | rfl | rfl | rfl
    · refine .inr (hline _ fun hm => ?_)
      obtain ⟨c, hc, hkey⟩ := exists_not_isKeyChar hm
      exact hnot hkey hc
    · exact .inr (hline _ fun hm => hnot (by decide) (dot_mem_of_float hm))
    · exact absurd hint (by decide)
    · exact .inl (ImplicitTag.not_mayStart hx (by decide +kernel))
    · exact .inl (ImplicitTag.not_mayStart hx (by decide +kernel))
    · exact .inr (hline _ fun hm => hnot (by decide) (hyphen_mem_of_timestamp hm))
    · exact .inl (ImplicitTag.not_mayStart hx (by decide +kernel))
    · exact .inl (ImplicitTag.not_mayStart hx (by decide +kernel))
  rw [resolve, hnone]
  rfl

end Keyring.Yaml
