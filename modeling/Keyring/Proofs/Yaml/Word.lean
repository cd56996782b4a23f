import Keyring.Yaml.Token.Property
import Keyring.Yaml.Token.Quoted
/-!
# Words

A word is a run of letters, digits, hyphens and low lines. No sign of YAML interrupts one, so a plain
scalar reads it to its end (`readPlain_key`, `readPlain_line`, `readPlain_end`), and between quotes it
stands for itself (`readQuoted_word`).
-/

namespace Keyring.Yaml

variable {c x : Char} {w rest more : List Char} {m : Mark}

/-- The text `w` is a word. -/
def IsWord (w : List Char) : Prop :=
  ∀ c ∈ w, isWordChar c = true

instance (w : List Char) : Decidable (IsWord w) :=
  decidable_of_iff (w.all isWordChar = true) List.all_eq_true

/-! ## Characters -/

theorem toNat_lt_of_isWordChar (hc : isWordChar c = true) : c.toNat < 128 := by
  simp only [isWordChar, Bool.or_eq_true, Bool.and_eq_true, decide_eq_true_eq, beq_iff_eq,
    Char.le_def, UInt32.le_iff_toNat_le] at hc
  have hval : c.toNat = c.val.toNat := rfl
  have hZ : 'Z'.val.toNat = 90 := rfl
  have hz : 'z'.val.toNat = 122 := rfl
  have h9 : '9'.val.toNat = 57 := rfl
  rcases hc with ((hc | rfl) | rfl)
  · omega
  · decide
  · decide

/-- What the seven-bit word characters all satisfy, word characters satisfy. -/
theorem of_isWordChar {p : Char → Bool}
    (hp : ∀ n : Fin 128, isWordChar (Char.ofNat n) = true → p (Char.ofNat n) = true)
    (hc : isWordChar c = true) : p c = true := by
  have h := hp ⟨c.toNat, toNat_lt_of_isWordChar hc⟩
  rw [Char.ofNat_toNat] at h
  exact h hc

theorem isBlankOrEnd_of_isWordChar (hc : isWordChar c = true) : isBlankOrEnd c = false := by
  simpa using of_isWordChar (p := fun c => !isBlankOrEnd c) (by decide +kernel) hc

theorem interruptsQuoted_of_isWordChar (hc : isWordChar c = true) : interruptsQuoted c = false := by
  simpa using of_isWordChar (p := fun c => !interruptsQuoted c) (by decide +kernel) hc

theorem isBreak_of_isWordChar (hc : isWordChar c = true) : isBreak c = false := by
  simpa using of_isWordChar (p := fun c => !isBreak c) (by decide +kernel) hc

/-- A word character is none of the others. -/
theorem ne_of_isWordChar (hc : isWordChar c = true) (hx : isWordChar x = false) : c ≠ x := by
  rintro rfl
  rw [hc] at hx
  cases hx

/-! ## Marks and cursors -/

/-- The place `n` characters to the right. -/
def Mark.right (m : Mark) (n : Nat) : Mark :=
  ⟨m.index + n, m.line, m.column + n⟩

/-- The place at the start of the next line. -/
def Mark.below (m : Mark) : Mark :=
  ⟨m.index + 1, m.line + 1, 0⟩

@[simp] theorem Mark.right_right (m : Mark) (a b : Nat) : (m.right a).right b = m.right (a + b) := by
  simp only [Mark.right, Nat.add_assoc]

/-- Characters that end no line and have a width. -/
def IsNarrow (w : List Char) : Prop :=
  ∀ c ∈ w, isBreak c = false ∧ c.toNat ≠ 0xFEFF

theorem IsWord.isNarrow (hw : IsWord w) : IsNarrow w := by
  intro c hc
  have := toNat_lt_of_isWordChar (hw c hc)
  exact ⟨isBreak_of_isWordChar (hw c hc), by omega⟩

namespace Cursor

theorem next_narrow (hc : isBreak c = false) (hw : c.toNat ≠ 0xFEFF) (rest : List Char) (m : Mark) :
    (⟨c :: rest, m⟩ : Cursor).next = ⟨rest, m.right 1⟩ := by
  have hw' : (c.toNat == 0xFEFF) = false := by simpa using hw
  simp [next, Mark.past, hc, hw', Mark.right]

theorem advance_append (hw : IsNarrow w) (rest : List Char) (m : Mark) :
    (⟨w ++ rest, m⟩ : Cursor).advance w.length = ⟨rest, m.right w.length⟩ := by
  induction w generalizing m with
  | nil => rfl
  | cons c w ih =>
    obtain ⟨hc, hc'⟩ := hw c List.mem_cons_self
    rw [List.cons_append, List.length_cons, advance, next_narrow hc hc',
      ih fun d hd => hw d (List.mem_cons_of_mem _ hd), Mark.right_right, Nat.add_comm 1]

theorem span_append_of_neg {p : Char → Bool} (hw : IsNarrow w) (hp : ∀ c ∈ w, p c = true)
    (hx : p (rest.headD '\x00') = false) (m : Mark) :
    (⟨w ++ rest, m⟩ : Cursor).span p = (w, ⟨rest, m.right w.length⟩) := by
  have hrun : (w ++ rest).takeWhile p = w := by
    rw [List.takeWhile_append_of_pos hp]
    cases rest with
    | nil => simp
    | cons x rest => rw [List.takeWhile_cons_of_neg (by simpa using hx), List.append_nil]
  rw [span, hrun, advance_append hw]

end Cursor

/-! ## Plain scalars -/

/-- The text is over, or goes on with a character of words that is no hyphen. -/
def StartsLine (rest : List Char) : Prop :=
  ∀ c ∈ rest.head?, isWordChar c = true ∧ c ≠ '-'

theorem startsLine_iff :
    StartsLine rest ↔ rest.head?.all (fun c => isWordChar c && c != '-') = true := by
  simp [StartsLine, Option.all_eq_true]

instance (rest : List Char) : Decidable (StartsLine rest) :=
  decidable_of_iff _ startsLine_iff.symm

theorem plainRun_append (hw : IsWord w) (rest : List Char) :
    plainRun false (w ++ rest) = w ++ plainRun false rest := by
  induction w with
  | nil => rfl
  | cons c w ih =>
    have hc := hw c List.mem_cons_self
    have hends : endsPlain false c (w ++ rest) = false := by
      simp [endsPlain, isBlankOrEnd_of_isWordChar hc, ne_of_isWordChar (x := ':') hc (by decide)]
    simp only [List.cons_append, plainRun, hends, Bool.false_eq_true, if_false,
      ih fun d hd => hw d (List.mem_cons_of_mem _ hd)]

/-- What ends nowhere before `rest` is read, and the white space after it decides what comes next. -/
theorem readPlain_run {gap : PlainGap} {indent : Int} (hrun : plainRun false (w ++ rest) = w)
    (hne : w ≠ []) (hfirst : w.head? ≠ some '#') (hnarrow : IsNarrow w)
    (hgap : plainGap ⟨rest, m.right w.length⟩ = gap)
    (hlast : gap.text = [] ∨ gap.cursor.mark.column < indent) (fuel : Nat) :
    readPlain false indent (fuel + 1) ⟨w ++ rest, m⟩ = some ⟨w, gap.broke, gap.cursor⟩ := by
  obtain ⟨c, w', rfl⟩ := List.exists_cons_of_ne_nil hne
  have hpeek : ((⟨c :: w' ++ rest, m⟩ : Cursor).peek == '#') = false :=
    beq_eq_false_iff_ne.2 fun hc => hfirst (congrArg some hc)
  rw [readPlain, hpeek]
  simp only [Bool.false_eq_true, if_false, hrun, Cursor.advance_append hnarrow, hgap]
  rw [if_neg (by simp), if_pos]
  simpa using hlast

/-- A word is read, and the white space after it decides what comes next. -/
theorem readPlain_word {gap : PlainGap} {indent : Int} (hw : IsWord w) (hne : w ≠ [])
    (hend : plainRun false rest = []) (hgap : plainGap ⟨rest, m.right w.length⟩ = gap)
    (hlast : gap.text = [] ∨ gap.cursor.mark.column < indent) (fuel : Nat) :
    readPlain false indent (fuel + 1) ⟨w ++ rest, m⟩ = some ⟨w, gap.broke, gap.cursor⟩ := by
  refine readPlain_run ?_ hne ?_ hw.isNarrow hgap hlast fuel
  · rw [plainRun_append hw, hend, List.append_nil]
  · intro hc
    exact ne_of_isWordChar (hw '#' (List.mem_of_head? hc)) (by decide) rfl

/-- A word is a key if a colon and a space follow. -/
theorem readPlain_key (hw : IsWord w) (hne : w ≠ []) (indent : Int) (fuel : Nat) (more : List Char)
    (m : Mark) : readPlain false indent (fuel + 1) ⟨w ++ ':' :: ' ' :: more, m⟩ =
      some ⟨w, false, ⟨':' :: ' ' :: more, m.right w.length⟩⟩ :=
  readPlain_word hw hne rfl rfl (.inl rfl) fuel

/-- A word ends with the text. -/
theorem readPlain_end (hw : IsWord w) (hne : w ≠ []) (indent : Int) (fuel : Nat) (m : Mark) :
    readPlain false indent (fuel + 1) ⟨w ++ [], m⟩ =
      some ⟨w, false, ⟨[], m.right w.length⟩⟩ :=
  readPlain_word hw hne rfl rfl (.inl rfl) fuel

/-- No document marker starts such a line. -/
theorem atAnyMarker_of_startsLine (hm : StartsLine more) (m : Mark) :
    (⟨more, m⟩ : Cursor).atAnyMarker = false := by
  cases more with
  | nil => rfl
  | cons c more =>
    obtain ⟨hc, hne⟩ := hm c rfl
    have hdot := ne_of_isWordChar (x := '.') hc (by decide)
    simp [Cursor.atAnyMarker, Cursor.atMarker, Cursor.startsWith, List.isPrefixOf, hne.symm,
      hdot.symm]

theorem plainGap_break (hm : StartsLine more) (m : Mark) :
    plainGap ⟨'\n' :: more, m⟩ = ⟨[' '], true, ⟨more, m.below⟩⟩ := by
  have hbreaks : plainBreaks more.length ⟨more, m.below⟩ = (some [], ⟨more, m.below⟩) := by
    cases more with
    | nil => rfl
    | cons c more =>
      obtain ⟨hc, -⟩ := hm c rfl
      have hspace : (c == ' ') = false := by simpa using ne_of_isWordChar (x := ' ') hc (by decide)
      simp [plainBreaks, Cursor.peek, hspace, isBreak_of_isWordChar hc]
  have hline : (⟨'\n' :: more, m⟩ : Cursor).lineBreak = (['\n'], ⟨more, m.below⟩) := rfl
  have hspan : (⟨'\n' :: more, m⟩ : Cursor).span (· == ' ') = ([], ⟨'\n' :: more, m⟩) := rfl
  simp only [plainGap, hspan, hline, atAnyMarker_of_startsLine hm, hbreaks, Cursor.peek,
    List.headD_cons]
  rfl

/-- A word ends with its line if the next one is indented less. -/
theorem readPlain_line (hw : IsWord w) (hne : w ≠ []) (hm : StartsLine more) {indent : Int}
    (hi : 0 < indent) (fuel : Nat) (m : Mark) :
    readPlain false indent (fuel + 1) ⟨w ++ '\n' :: more, m⟩ =
      some ⟨w, true, ⟨more, (m.right w.length).below⟩⟩ :=
  readPlain_word hw hne rfl (plainGap_break hm _) (.inr hi) fuel

/-! ## Quoted scalars -/

theorem isNarrow_quote (q : Quote) : isBreak q.char = false ∧ q.char.toNat ≠ 0xFEFF := by
  cases q <;> decide

/-- Between quotes a word stands for itself. -/
theorem readQuoted_word (q : Quote) (hw : IsWord w)
    (hrest : q = .single → rest.headD '\x00' ≠ '\x27') (m : Mark) :
    readQuoted q ⟨q.char :: (w ++ q.char :: rest), m⟩ =
      .ok (w, ⟨rest, m.right (w.length + 2)⟩) := by
  obtain ⟨hq, hq'⟩ := isNarrow_quote q
  have hspan : (⟨w ++ q.char :: rest, m.right 1⟩ : Cursor).span (!interruptsQuoted ·) =
      (w, ⟨q.char :: rest, (m.right 1).right w.length⟩) := by
    refine Cursor.span_append_of_neg hw.isNarrow ?_ ?_ _
    · intro c hc
      rw [interruptsQuoted_of_isWordChar (hw c hc)]
      rfl
    · cases q <;> rfl
  have hrun : ∀ fuel, quotedRun q m (fuel + 1) ⟨w ++ q.char :: rest, m.right 1⟩ =
      .ok (w, ⟨q.char :: rest, m.right (w.length + 1)⟩) := by
    intro fuel
    rw [quotedRun, hspan, Mark.right_right, Nat.add_comm 1]
    cases q with
    | single =>
      have hnext : (⟨'\x27' :: rest, m.right (w.length + 1)⟩ : Cursor).peekAt 1 ≠ '\x27' := by
        cases rest with
        | nil => exact show '\x00' ≠ '\x27' by decide
        | cons x rest => exact hrest rfl
      simp [Quote.char, Cursor.peek, hnext, pure, Except.pure]
    | double => simp [Quote.char, Cursor.peek, pure, Except.pure]
  rw [readQuoted, Cursor.next_narrow hq hq', quotedBody, hrun]
  simp [Cursor.peek, Cursor.next_narrow hq hq', bind, Except.bind, pure, Except.pure]

end Keyring.Yaml
