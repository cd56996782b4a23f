import Keyring.Proofs.Yaml.Queue
/-!
# Texts of simple lines

A simple line is a key, a colon, a space and a value of one word, plain or between quotes. The scan of
a text of simple lines opens a mapping, delivers a key and a value a line, and closes the mapping
(`tokens_join`): one line is told by `delivers_line`, the text by induction over the lines.
-/

namespace Keyring.Yaml

/-! ## Lines -/

/-- How a word is written. -/
inductive Style where
  | plain
  | quoted (q : Quote)
  deriving DecidableEq, Repr

/-- The text of a word in a style. -/
def Style.write : Style → List Char → List Char
  | plain, w => w
  | quoted q, w => q.char :: (w ++ [q.char])

def Style.isPlain : Style → Bool
  | plain => true
  | quoted _ => false

/-- A line of a block mapping. -/
structure Line where
  key : List Char
  value : List Char
  style : Style

/-- A word that a plain scalar can be. -/
structure IsPlainWord (w : List Char) : Prop where
  isWord : IsWord w
  ne_nil : w ≠ []
  startsLine : StartsLine w

instance (w : List Char) : Decidable (IsPlainWord w) :=
  decidable_of_iff (IsWord w ∧ w ≠ [] ∧ StartsLine w)
    ⟨fun h => ⟨h.1, h.2.1, h.2.2⟩, fun h => ⟨h.isWord, h.ne_nil, h.startsLine⟩⟩

theorem IsPlainWord.exists_cons {w : List Char} (hw : IsPlainWord w) :
    ∃ x w', w = x :: w' ∧ isWordChar x = true ∧ x ≠ '-' := by
  obtain ⟨x, w', rfl⟩ := List.exists_cons_of_ne_nil hw.ne_nil
  exact ⟨x, w', rfl, hw.startsLine x rfl⟩

theorem IsPlainWord.startsLine_append {w : List Char} (hw : IsPlainWord w) (rest : List Char) :
    StartsLine (w ++ rest) := by
  obtain ⟨x, w', rfl, hx⟩ := hw.exists_cons
  simpa [StartsLine] using hx

namespace Line

/-- The text of a line, without the line feed at its end. -/
def text (l : Line) : List Char :=
  l.key ++ ':' :: ' ' :: l.style.write l.value

/-- The text of lines, with line feeds between them. -/
def join (lines : List Line) : List Char :=
  ['\n'].intercalate (lines.map text)

@[simp] theorem join_singleton (l : Line) : join [l] = l.text := by
  simp [join]

theorem join_cons_cons (l d : Line) (lines : List Line) :
    join (l :: d :: lines) = l.text ++ '\n' :: join (d :: lines) := by
  simp [join]

theorem exists_join_cons (l : Line) (lines : List Line) :
    ∃ rest, join (l :: lines) = l.key ++ rest := by
  cases lines with
  | nil => exact ⟨_, join_singleton l⟩
  | cons d lines => exact ⟨_, by rw [join_cons_cons, text, List.append_assoc]⟩

/-- The key is a plain word that is not too long, the value a word in its style. -/
structure IsSimple (l : Line) : Prop where
  key : IsPlainWord l.key
  key_length : l.key.length ≤ Scan.keyReach
  value : IsWord l.value
  plain : l.style = .plain → IsPlainWord l.value

/-- The tokens of a line. -/
def kinds (l : Line) : List TokenKind :=
  [.key, .scalar l.key true, .value, .scalar l.value l.style.isPlain]

end Line

namespace Scan

variable {opened : Bool} {c : Cursor} {taken : Nat} {l : Line} {more tail : List Char}

/-! ## States between lines -/

/-- A scan between two tokens of a block mapping at the margin, which is open if `opened` holds. -/
def atMargin (opened : Bool) (c : Cursor) (taken : Nat) (allowed : Bool) : Scan where
  cursor := c
  queue := []
  taken
  finished := false
  flowLevel := 0
  indent := if opened then 0 else -1
  indents := if opened then [-1] else []
  keyAllowed := allowed
  keys := []

theorem unwind_of_indent {s : Scan} (hi : s.indent ≤ 0) (n : Nat) : s.unwind n = s := by
  rw [unwind]
  split
  · rfl
  · cases s.indents with
    | nil => rfl
    | cons i outer => rw [unwindTo, if_neg (by omega)]

theorem indent_atMargin (opened : Bool) (c : Cursor) (taken : Nat) (allowed : Bool) :
    (atMargin opened c taken allowed).indent ≤ 0 := by
  cases opened with
  | false => exact show (-1 : Int) ≤ 0 by decide
  | true => exact Int.le_refl 0

/-- The line that starts with `more` comes next: the cursor is at its start, or at the line feed
before it, or at the end of a text that has no more lines. -/
inductive BeforeLine (more : List Char) : Cursor → Bool → Prop
  | start (m : Mark) : m.column = 0 → BeforeLine more ⟨more, m⟩ true
  | lineBreak (m : Mark) (allowed : Bool) : BeforeLine more ⟨'\n' :: more, m⟩ allowed
  | done (m : Mark) (allowed : Bool) : more = [] → BeforeLine more ⟨[], m⟩ allowed

/-- What follows a value, the end of the text or a line feed, and the lines below it. -/
inductive AfterValue : List Char → List Char → Prop
  | done : AfterValue [] []
  | lineBreak (more : List Char) : StartsLine more → AfterValue ('\n' :: more) more

theorem AfterValue.startsLine (h : AfterValue tail more) : StartsLine more := by
  cases h with
  | done => simp [StartsLine]
  | lineBreak _ hm => exact hm

/-! ## The token at the cursor -/

theorem atToken_of_startsLine {s : Scan} (hc : s.cursor.rest = more) (hm : StartsLine more) :
    AtToken s := by
  have hpeek : s.cursor.peek = more.headD '\x00' := by rw [Cursor.peek, hc]
  cases more with
  | nil => constructor <;> rw [hpeek] <;> decide
  | cons x more =>
    obtain ⟨hx, -⟩ := hm x rfl
    have hlt := toNat_lt_of_isWordChar hx
    constructor <;> rw [hpeek]
    · exact ne_of_isWordChar hx (by decide)
    · exact ne_of_isWordChar hx (by decide)
    · exact isBreak_of_isWordChar hx
    · exact show x.toNat ≠ 0xFEFF by omega

theorem fetchHere_end {s : Scan} (hc : s.cursor.rest = []) : s.fetchHere = s.fetchStreamEnd := by
  have hpeek : s.cursor.peek = '\x00' := by rw [Cursor.peek, hc]; rfl
  rw [fetchHere, hpeek]
  rfl

theorem fetchHere_colon {s : Scan} (hc : s.cursor.rest = ':' :: ' ' :: more) :
    s.fetchHere = s.fetchValue := by
  have hpeek : s.cursor.peek = ':' := by rw [Cursor.peek, hc]; rfl
  have hnext : s.cursor.peekAt 1 = ' ' := by rw [Cursor.peekAt, hc]; rfl
  have hsign : s.atSign = true := by rw [atSign, hnext, Bool.or_eq_true]; exact .inr rfl
  simp [fetchHere, hpeek, hsign, Cursor.atMarker, Cursor.startsWith, hc, List.isPrefixOf]

theorem fetchHere_quote {s : Scan} {q : Quote} (hc : s.cursor.rest = q.char :: more) :
    s.fetchHere = s.fetchQuoted q := by
  have hpeek : s.cursor.peek = q.char := by rw [Cursor.peek, hc]; rfl
  cases q <;> simp [fetchHere, hpeek, Quote.char, Cursor.atMarker, Cursor.startsWith, hc,
    List.isPrefixOf]

theorem fetchHere_word {s : Scan} {x : Char} (hc : s.cursor.rest = x :: more)
    (hx : isWordChar x = true) (hne : x ≠ '-') : s.fetchHere = s.fetchPlain := by
  have hpeek : s.cursor.peek = x := by rw [Cursor.peek, hc]; rfl
  have hother : ∀ y, isWordChar y = false → x ≠ y := fun y hy => ne_of_isWordChar hx hy
  have hnul : (x.toNat == 0) = false := by
    simpa using of_isWordChar (p := fun c => c.toNat != 0) (by decide +kernel) hx
  have hstart : StartsLine (x :: more) := by simpa [StartsLine] using ⟨hx, hne⟩
  have hmarker := atAnyMarker_of_startsLine hstart s.cursor.mark
  have hmarker' : s.cursor.atMarker "---" = false ∧ s.cursor.atMarker "..." = false := by
    rw [← hc] at hmarker
    exact Bool.or_eq_false_iff.1 hmarker
  have hplain : s.startsPlain = true := by
    have hindicator : ("-?:,[]\x7b\x7d#&*!|>'\"%@".toList.contains x || x.toNat == 0x60) = false := by
      have hp := of_isWordChar (p := fun c => c == '-' ||
        !("-?:,[]\x7b\x7d#&*!|>'\"%@".toList.contains c || c.toNat == 0x60)) (by decide +kernel) hx
      simpa [hne] using hp
    rw [startsPlain, hpeek]
    simp only [hindicator, isBlankOrEnd_of_isWordChar hx]
    rfl
  simp (disch := decide) [fetchHere, hpeek, hother, hnul, hmarker'.1, hmarker'.2, hplain, hne]

theorem saveKey_of_not_allowed {s : Scan} (h : s.keyAllowed = false) : s.saveKey = .ok s := by
  rw [saveKey, h]
  rfl

theorem fetchPlain_eq {s s' : Scan} {p : Plain} (hs : s.saveKey = .ok s')
    (hp : readPlain s'.inFlow (s'.indent + 1) (s'.cursor.rest.length + 1) s'.cursor = some p) :
    s.fetchPlain = .ok { s'.push ⟨.scalar p.text true, s'.mark, p.cursor.mark⟩ with
      keyAllowed := p.broke, cursor := p.cursor } := by
  simp only [fetchPlain, hs, bind, Except.bind]
  rw [hp]
  rfl

theorem fetchQuoted_eq {s s' : Scan} {q : Quote} {w : List Char} {c : Cursor}
    (hs : s.saveKey = .ok s') (hq : readQuoted q s'.cursor = .ok (w, c)) :
    s.fetchQuoted q = .ok { s'.push ⟨.scalar w false, s'.mark, c.mark⟩ with
      keyAllowed := false, cursor := c } := by
  simp only [fetchQuoted, hs, bind, Except.bind]
  rw [hq]
  rfl

/-! ## A key -/

/-- The scan after the key `w` of a line that starts at `m`; `more` is the value. -/
def afterKey (opened : Bool) (w more : List Char) (taken : Nat) (m : Mark) : Scan :=
  { atMargin opened ⟨':' :: ' ' :: more, m.right w.length⟩ taken false with
    queue := [⟨.scalar w true, m, m.right w.length⟩]
    keys := [(0, ⟨taken, opened, m⟩)] }

/-- The tokens of a key and its colon, and of the mapping unless it is open. -/
def keyTokens (opened : Bool) (w : List Char) (m : Mark) : List Token :=
  (if opened then [] else [⟨.blockMappingStart, m, m⟩]) ++
    [⟨.key, m, m⟩, ⟨.scalar w true, m, m.right w.length⟩,
      ⟨.value, m.right w.length, m.right (w.length + 1)⟩]

/-- The scan after the colon. -/
def afterColon (opened : Bool) (w more : List Char) (taken : Nat) (m : Mark) : Scan :=
  { atMargin true ⟨' ' :: more, m.right (w.length + 1)⟩ taken false with
    queue := keyTokens opened w m }

variable {w : List Char}

theorem fetchHere_key (hw : IsPlainWord w) {m : Mark} (hm : m.column = 0) :
    (atMargin opened ⟨w ++ ':' :: ' ' :: more, m⟩ taken true).fetchHere =
      .ok (afterKey opened w more taken m) := by
  obtain ⟨x, w', hwx, hx, hne⟩ := hw.exists_cons
  have hrest : w ++ ':' :: ' ' :: more = x :: (w' ++ ':' :: ' ' :: more) := by
    rw [hwx, List.cons_append]
  have hrequired : ((atMargin opened ⟨w ++ ':' :: ' ' :: more, m⟩ taken true).indent ==
      (m.column : Int)) = opened := by
    rw [hm]
    cases opened <;> rfl
  have hsave : (atMargin opened ⟨w ++ ':' :: ' ' :: more, m⟩ taken true).saveKey =
      .ok { atMargin opened ⟨w ++ ':' :: ' ' :: more, m⟩ taken true with
        keys := [(0, ⟨taken, (atMargin opened ⟨w ++ ':' :: ' ' :: more, m⟩ taken true).indent ==
          (m.column : Int), m⟩)] } := rfl
  rw [hrequired] at hsave
  rw [fetchHere_word hrest hx hne]
  exact fetchPlain_eq hsave (readPlain_key hw.isWord hw.ne_nil _ _ more m)

theorem fetch_key_start (hw : IsPlainWord w) {m : Mark} (hm : m.column = 0) (opened : Bool)
    (taken : Nat) : (atMargin opened ⟨w ++ ':' :: ' ' :: more, m⟩ taken true).fetch =
      .ok (afterKey opened w more taken m) := by
  have htoken : AtToken (atMargin opened ⟨w ++ ':' :: ' ' :: more, m⟩ taken true) :=
    atToken_of_startsLine rfl (hw.startsLine_append _)
  rw [htoken.fetch (dropStaleKeys_of_keys rfl), unwind_of_indent (indent_atMargin ..),
    fetchHere_key hw hm]

/-- The key of the next line is read, and remembered as a key. -/
theorem fetch_key {allowed : Bool} (hw : IsPlainWord w)
    (hb : BeforeLine (w ++ ':' :: ' ' :: more) c allowed) (opened : Bool) (taken : Nat) :
    ∃ m, m.column = 0 ∧
      (atMargin opened c taken allowed).fetch = .ok (afterKey opened w more taken m) := by
  cases hb with
  | start m hm => exact ⟨m, hm, fetch_key_start hw hm opened taken⟩
  | lineBreak m =>
    have htoken : AtToken (atMargin opened ⟨w ++ ':' :: ' ' :: more, m.below⟩ taken true) :=
      atToken_of_startsLine rfl (hw.startsLine_append _)
    have hfetch : (atMargin opened ⟨'\n' :: (w ++ ':' :: ' ' :: more), m⟩ taken allowed).fetch = _ :=
      fetch_break htoken rfl rfl rfl rfl
    refine ⟨m.below, rfl, ?_⟩
    rw [hfetch, unwind_of_indent (indent_atMargin ..), fetchHere_key hw rfl]
  | done m _ hnil => simp at hnil

theorem dropStaleKeys_afterKey (hw : w.length ≤ keyReach) (m : Mark) :
    (afterKey opened w more taken m).dropStaleKeys = .ok (afterKey opened w more taken m) := by
  have hstale : (afterKey opened w more taken m).isStale ⟨taken, opened, m⟩ = false := by
    simpa [isStale, afterKey, atMargin, mark, Mark.right] using hw
  rw [dropStaleKeys]
  simp only [show (afterKey opened w more taken m).keys = [(0, ⟨taken, opened, m⟩)] from rfl,
    List.find?, List.filter, hstale]
  rfl

theorem atToken_colon {s : Scan} (hc : s.cursor.rest = ':' :: more) : AtToken s := by
  have hpeek : s.cursor.peek = ':' := by rw [Cursor.peek, hc]; rfl
  constructor <;> rw [hpeek] <;> decide

theorem atToken_quote {s : Scan} {q : Quote} (hc : s.cursor.rest = q.char :: more) : AtToken s := by
  have hpeek : s.cursor.peek = q.char := by rw [Cursor.peek, hc]; rfl
  constructor <;> rw [hpeek] <;> cases q <;> decide

theorem fetch_colon (hw : w.length ≤ keyReach) {m : Mark} (hm : m.column = 0) :
    (afterKey opened w more taken m).fetch = .ok (afterColon opened w more taken m) := by
  have hindent : (afterKey opened w more taken m).indent ≤ 0 :=
    indent_atMargin opened ⟨[], m⟩ taken false
  rw [(atToken_colon rfl).fetch (dropStaleKeys_afterKey hw m), unwind_of_indent hindent,
    fetchHere_colon rfl, fetchValue]
  have hkey : (afterKey opened w more taken m).key? = some ⟨taken, opened, m⟩ := rfl
  have hcursor : Cursor.advance 1 ⟨':' :: ' ' :: more, m.right w.length⟩ =
      ⟨' ' :: more, m.right (w.length + 1)⟩ := rfl
  rw [hkey]
  cases opened <;>
    simp [afterKey, atMargin, forgetKey, makeKey, inFlow, indentTo, hm, insertBefore, pushSign, push,
      mark, hcursor, afterColon, keyTokens, pure, Except.pure]

theorem delivers_key {s : Scan} {m : Mark} (hf : s.finished = false) (hq : s.queue = [])
    (hrest : s.cursor.rest ≠ []) (hs : s.fetch = .ok (afterKey opened w more taken m))
    (hw : w.length ≤ keyReach) (hm : m.column = 0) :
    s.Delivers (keyTokens opened w m) (atMargin true ⟨' ' :: more, m.right (w.length + 1)⟩
      (taken + (keyTokens opened w m).length) false) := by
  -- The key waits for its colon, so one fill fetches both.
  have hwaits : (afterKey opened w more taken m).waits = true := by simp [waits, afterKey, atMargin]
  obtain ⟨fuel, hfuel⟩ : ∃ fuel, s.cursor.rest.length + 2 = fuel + 1 + 1 + 1 :=
    ⟨s.cursor.rest.length - 1, by have := List.length_pos_iff.2 hrest; omega⟩
  have hfill : s.fill (s.cursor.rest.length + 2) = .ok (afterColon opened w more taken m) := by
    rw [hfuel, fill_of_fetch hf hq hs,
      fill_of_waits rfl (by simp [afterKey]) (dropStaleKeys_afterKey hw m) hwaits (fetch_colon hw hm),
      fill_of_ready rfl (by simp [afterColon, keyTokens])]
  exact delivers_of_fill hfill rfl (by simp [afterColon, keyTokens])

/-! ## A value -/

/-- A plain value is read as far as the reader of plain scalars goes. -/
theorem fetch_plain {rest : List Char} (hw : IsPlainWord w) {m : Mark} {broke : Bool}
    (hread : ∀ fuel, readPlain false 1 (fuel + 1) ⟨w ++ rest, m.right 1⟩ = some ⟨w, broke, c⟩)
    (taken : Nat) : (atMargin true ⟨' ' :: (w ++ rest), m⟩ taken false).fetch =
      .ok { atMargin true c taken broke with queue := [⟨.scalar w true, m.right 1, c.mark⟩] } := by
  obtain ⟨x, w', hwx, hx, hne⟩ := hw.exists_cons
  have hrest : w ++ rest = x :: (w' ++ rest) := by rw [hwx, List.cons_append]
  have htoken : AtToken (atMargin true ⟨w ++ rest, m.right 1⟩ taken false) :=
    atToken_of_startsLine rfl (hw.startsLine_append _)
  have hfetch : (atMargin true ⟨' ' :: (w ++ rest), m⟩ taken false).fetch = _ :=
    fetch_space htoken rfl rfl rfl
  have hsave : (atMargin true ⟨w ++ rest, m.right 1⟩ taken false).saveKey = .ok _ :=
    saveKey_of_not_allowed rfl
  rw [hfetch, unwind_of_indent (indent_atMargin ..), fetchHere_word hrest hx hne,
    fetchPlain_eq hsave (hread _)]
  rfl

/-- A plain value is read up to the start of the next line. -/
theorem fetch_plain_line (hw : IsPlainWord w) (hm : StartsLine more) (m : Mark) (taken : Nat) :
    (atMargin true ⟨' ' :: (w ++ '\n' :: more), m⟩ taken false).fetch =
      .ok { atMargin true ⟨more, (m.right (1 + w.length)).below⟩ taken true with
        queue := [⟨.scalar w true, m.right 1, (m.right (1 + w.length)).below⟩] } := by
  rw [← Mark.right_right]
  exact fetch_plain hw (fun fuel => readPlain_line hw.isWord hw.ne_nil hm Int.one_pos fuel _) taken

theorem fetch_plain_end (hw : IsPlainWord w) (m : Mark) (taken : Nat) :
    (atMargin true ⟨' ' :: (w ++ []), m⟩ taken false).fetch =
      .ok { atMargin true ⟨[], m.right (1 + w.length)⟩ taken false with
        queue := [⟨.scalar w true, m.right 1, m.right (1 + w.length)⟩] } := by
  rw [← Mark.right_right]
  exact fetch_plain hw (fun fuel => readPlain_end hw.isWord hw.ne_nil 1 fuel _) taken

/-- A value between quotes is read up to the closing one, whatever follows. -/
theorem fetch_quoted {q : Quote} (hw : IsWord w)
    (htail : q = .single → tail.headD '\x00' ≠ '\x27') (m : Mark) (taken : Nat) :
    (atMargin true ⟨' ' :: q.char :: (w ++ q.char :: tail), m⟩ taken false).fetch =
      .ok { atMargin true ⟨tail, m.right (1 + (w.length + 2))⟩ taken false with
        queue := [⟨.scalar w false, m.right 1, m.right (1 + (w.length + 2))⟩] } := by
  have htoken : AtToken (atMargin true ⟨q.char :: (w ++ q.char :: tail), m.right 1⟩ taken false) :=
    atToken_quote rfl
  have hfetch : (atMargin true ⟨' ' :: q.char :: (w ++ q.char :: tail), m⟩ taken false).fetch = _ :=
    fetch_space htoken rfl rfl rfl
  rw [hfetch, unwind_of_indent (indent_atMargin ..), fetchHere_quote rfl,
    fetchQuoted_eq (saveKey_of_not_allowed rfl) (readQuoted_word q hw htail (m.right 1)),
    Mark.right_right]
  rfl

/-- The value of a line is read up to the next line. -/
theorem fetch_value {style : Style} (hw : IsWord w) (hplain : style = .plain → IsPlainWord w)
    (ht : AfterValue tail more) (m : Mark) (taken : Nat) :
    ∃ t c allowed, (atMargin true ⟨' ' :: (style.write w ++ tail), m⟩ taken false).fetch =
        .ok { atMargin true c taken allowed with queue := [t] } ∧
      t.kind = .scalar w style.isPlain ∧ BeforeLine more c allowed := by
  cases style with
  | plain =>
    cases ht with
    | done => exact ⟨_, _, _, fetch_plain_end (hplain rfl) m taken, rfl, .done _ _ rfl⟩
    | lineBreak _ hm => exact ⟨_, _, _, fetch_plain_line (hplain rfl) hm m taken, rfl, .start _ rfl⟩
  | quoted q =>
    have hrest : (Style.quoted q).write w ++ tail = q.char :: (w ++ q.char :: tail) := by
      simp [Style.write]
    have htail : q = .single → tail.headD '\x00' ≠ '\x27' := by
      intro _
      cases ht <;> simp
    refine ⟨_, _, _, by rw [hrest]; exact fetch_quoted hw htail m taken, rfl, ?_⟩
    cases ht with
    | done => exact .done _ _ rfl
    | lineBreak _ _ => exact .lineBreak _ _

/-! ## Lines -/

/-- The token that opens the mapping, unless it is open. -/
def opening (opened : Bool) : List TokenKind :=
  if opened then [] else [.blockMappingStart]

theorem kind_keyTokens (opened : Bool) (w : List Char) (m : Mark) :
    (keyTokens opened w m).map Token.kind = opening opened ++ [.key, .scalar w true, .value] := by
  cases opened <;> rfl

/-- A line is delivered, and the next one comes. -/
theorem delivers_line {allowed : Bool} (hl : l.IsSimple) (ht : AfterValue tail more)
    (hb : BeforeLine (l.text ++ tail) c allowed) (opened : Bool) (taken : Nat) :
    ∃ ts c' taken' allowed',
      (atMargin opened c taken allowed).Delivers ts (atMargin true c' taken' allowed') ∧
      ts.map Token.kind = opening opened ++ l.kinds ∧ BeforeLine more c' allowed' := by
  have htext : l.text ++ tail = l.key ++ ':' :: ' ' :: (l.style.write l.value ++ tail) := by
    simp [Line.text]
  rw [htext] at hb
  have hrest : c.rest ≠ [] := by
    cases hb with
    | start => simp
    | lineBreak => simp
    | done _ _ hnil => simp at hnil
  obtain ⟨m, hm, hkey⟩ := fetch_key hl.key hb opened taken
  have hdelivers := delivers_key rfl rfl hrest hkey hl.key_length hm
  obtain ⟨t, c', allowed', hvalue, hkind, hnext⟩ :=
    fetch_value hl.value hl.plain ht (m.right (l.key.length + 1))
      (taken + (keyTokens opened l.key m).length)
  refine ⟨keyTokens opened l.key m ++ [t], c', _, allowed',
    hdelivers.trans (delivers_of_fetch rfl rfl hvalue rfl (by simp)), ?_, hnext⟩
  rw [List.map_append, kind_keyTokens, List.map_singleton, hkind, List.append_assoc]
  rfl

/-- The end of the text closes the mapping. -/
theorem delivers_end {allowed : Bool} (hb : BeforeLine [] c allowed) (taken : Nat) :
    ∃ ts s, (atMargin true c taken allowed).Delivers ts s ∧
      ts.map Token.kind = [.blockEnd, .streamEnd] ∧ s.finished = true ∧ s.queue = [] := by
  have hstart : StartsLine [] := by simp [StartsLine]
  have htoken (m : Mark) (allowed : Bool) : AtToken (atMargin true ⟨[], m⟩ taken allowed) :=
    atToken_of_startsLine rfl hstart
  have hend (m : Mark) (allowed : Bool) :
      (atMargin true ⟨[], m⟩ taken allowed).fetchHere = .ok { atMargin false ⟨[], m⟩ taken false with
        queue := [⟨.blockEnd, m, m⟩, ⟨.streamEnd, m, m⟩], finished := true } :=
    (fetchHere_end rfl).trans rfl
  obtain ⟨m, hfetch⟩ : ∃ m, (atMargin true c taken allowed).fetch =
      .ok { atMargin false ⟨[], m⟩ taken false with
        queue := [⟨.blockEnd, m, m⟩, ⟨.streamEnd, m, m⟩], finished := true } := by
    cases hb with
    | start m =>
      exact ⟨m, by rw [(htoken m true).fetch (dropStaleKeys_of_keys rfl),
        unwind_of_indent (indent_atMargin ..), hend]⟩
    | lineBreak m =>
      have hbreak : (atMargin true ⟨['\n'], m⟩ taken allowed).fetch = _ :=
        fetch_break (htoken m.below true) rfl rfl rfl rfl
      exact ⟨m.below, by rw [hbreak, unwind_of_indent (indent_atMargin ..), hend]⟩
    | done m =>
      exact ⟨m, by rw [(htoken m allowed).fetch (dropStaleKeys_of_keys rfl),
        unwind_of_indent (indent_atMargin ..), hend]⟩
  exact ⟨_, _, delivers_of_fetch rfl rfl hfetch rfl (by simp), rfl, rfl, rfl⟩

/-- All lines are delivered, one after the other. -/
theorem delivers_lines {ending : List Char} (hending : ending = [] ∨ ending = ['\n'])
    (lines : List Line) {allowed : Bool} (hl : ∀ d ∈ l :: lines, d.IsSimple)
    (hb : BeforeLine (Line.join (l :: lines) ++ ending) c allowed) (opened : Bool) (taken : Nat) :
    ∃ ts c' taken' allowed',
      (atMargin opened c taken allowed).Delivers ts (atMargin true c' taken' allowed') ∧
      ts.map Token.kind = opening opened ++ (l :: lines).flatMap Line.kinds ∧
      BeforeLine [] c' allowed' := by
  induction lines generalizing l c allowed opened taken with
  | nil =>
    have hafter : AfterValue ending [] := by
      rcases hending with rfl | rfl
      · exact .done
      · exact .lineBreak [] (by simp [StartsLine])
    rw [Line.join_singleton] at hb
    simpa using delivers_line (hl l (by simp)) hafter hb opened taken
  | cons d lines ih =>
    have hd := hl d (by simp)
    have hstart : StartsLine (Line.join (d :: lines) ++ ending) := by
      obtain ⟨rest, hrest⟩ := Line.exists_join_cons d lines
      rw [hrest, List.append_assoc]
      exact hd.key.startsLine_append _
    rw [Line.join_cons_cons, List.append_assoc, List.cons_append] at hb
    obtain ⟨ts, c', taken', allowed', hts, hkinds, hnext⟩ :=
      delivers_line (hl l (by simp)) (.lineBreak _ hstart) hb opened taken
    obtain ⟨us, c'', taken'', allowed'', hus, hkinds', hlast⟩ :=
      ih (fun x hx => hl x (List.mem_cons_of_mem _ hx)) hnext true taken'
    refine ⟨ts ++ us, c'', taken'', allowed'', hts.trans hus, ?_, hlast⟩
    rw [List.map_append, hkinds, hkinds', List.flatMap_cons, List.append_assoc]
    rfl

end Scan

/-! ## The tokens of a text -/

/-- Whether `c` may stand in a text of simple lines. -/
def isLineChar (c : Char) : Bool :=
  isWordChar c || c == ':' || c == ' ' || c == '\x27' || c == '"' || c == '\n'

theorem isLineChar_of_isWordChar {c : Char} (hc : isWordChar c = true) : isLineChar c = true := by
  simp [isLineChar, hc]

theorem Line.IsSimple.isLineChar {l : Line} (hl : l.IsSimple) :
    ∀ c ∈ l.text, isLineChar c = true := by
  have hword {w : List Char} (hw : IsWord w) : ∀ c ∈ w, Yaml.isLineChar c = true :=
    fun c hc => isLineChar_of_isWordChar (hw c hc)
  have hquote (q : Quote) : Yaml.isLineChar q.char = true := by cases q <;> decide
  have hwrite : ∀ c ∈ l.style.write l.value, Yaml.isLineChar c = true := by
    cases l.style with
    | plain => exact hword hl.value
    | quoted q =>
      intro c hc
      simp only [Style.write, List.mem_cons, List.mem_append, List.not_mem_nil, or_false] at hc
      rcases hc with rfl | hc | rfl
      · exact hquote q
      · exact hword hl.value c hc
      · exact hquote q
  intro c hc
  simp only [text, List.mem_append, List.mem_cons] at hc
  rcases hc with hc | rfl | rfl | hc
  · exact hword hl.key.isWord c hc
  · decide
  · decide
  · exact hwrite c hc

theorem isLineChar_join {lines : List Line} (hl : ∀ l ∈ lines, l.IsSimple) :
    ∀ c ∈ Line.join lines, isLineChar c = true := by
  induction lines with
  | nil => simp [Line.join]
  | cons l lines ih =>
    have ih := ih fun d hd => hl d (List.mem_cons_of_mem _ hd)
    have hfirst := (hl l List.mem_cons_self).isLineChar
    cases lines with
    | nil => rwa [Line.join_singleton]
    | cons d lines =>
      intro c hc
      rw [Line.join_cons_cons, List.mem_append, List.mem_cons] at hc
      rcases hc with hc | rfl | hc
      · exact hfirst c hc
      · decide
      · exact ih c hc

/-- The characters of a whole text of simple lines. -/
theorem isLineChar_text {ending : List Char} (hending : ending = [] ∨ ending = ['\n'])
    {lines : List Line} (hl : ∀ l ∈ lines, l.IsSimple) :
    ∀ c ∈ Line.join lines ++ ending, isLineChar c = true := by
  intro c hc
  rcases List.mem_append.1 hc with hc | hc
  · exact isLineChar_join hl c hc
  · rcases hending with rfl | rfl
    · cases hc
    · rw [List.mem_singleton.1 hc]
      decide

/-- They are seven-bit characters, all acceptable, and no carriage return is among them. -/
theorem of_isLineChar {c : Char} (hc : isLineChar c = true) :
    c.toNat < 0x80 ∧ isAcceptable c = true ∧ c ≠ '\r' := by
  simp only [isLineChar, Bool.or_eq_true, beq_iff_eq] at hc
  rcases hc with ((((hc | rfl) | rfl) | rfl) | rfl) | rfl
  · exact ⟨toNat_lt_of_isWordChar hc, of_isWordChar (p := isAcceptable) (by decide +kernel) hc,
      ne_of_isWordChar hc (by decide)⟩
  all_goals decide

theorem length_le_length_join (lines : List Line) : lines.length ≤ (Line.join lines).length := by
  induction lines with
  | nil => exact Nat.zero_le _
  | cons l lines ih =>
    have htext : 1 ≤ l.text.length := by
      rw [Line.text, List.length_append, List.length_cons]
      omega
    cases lines with
    | nil => simpa using htext
    | cons d lines =>
      simp only [Line.join_cons_cons, List.length_append, List.length_cons] at ih ⊢
      omega

theorem length_flatMap_kinds (lines : List Line) :
    (lines.flatMap Line.kinds).length = 4 * lines.length := by
  induction lines with
  | nil => rfl
  | cons l lines ih =>
    rw [List.flatMap_cons, List.length_append, ih, List.length_cons, Line.kinds]
    simp only [List.length_cons, List.length_nil]
    omega

/-- The tokens of simple lines are four a line and three more. -/
theorem length_of_kinds {ts : List Token} {lines : List Line} (h : ts.map Token.kind =
      .blockMappingStart :: (lines.flatMap Line.kinds ++ [.blockEnd, .streamEnd])) :
    ts.length = 4 * lines.length + 3 := by
  rw [← List.length_map (f := Token.kind), h, List.length_cons, List.length_append,
    length_flatMap_kinds]
  rfl

/-- The scan of a text of simple lines opens a mapping, delivers the lines and closes the mapping. -/
theorem tokens_join {ending : List Char} (hending : ending = [] ∨ ending = ['\n']) {l : Line}
    {lines : List Line} (hl : ∀ d ∈ l :: lines, d.IsSimple) :
    ∃ ts, tokens (Line.join (l :: lines) ++ ending) = (ts, none) ∧
      ts.map Token.kind =
        .blockMappingStart :: ((l :: lines).flatMap Line.kinds ++ [.blockEnd, .streamEnd]) := by
  have hacceptable : ∀ c ∈ Line.join (l :: lines) ++ ending, isAcceptable c = true :=
    fun c hc => (of_isLineChar (isLineChar_text hending hl c hc)).2.1
  obtain ⟨ts, c, taken, allowed, hlines, hkinds, hlast⟩ :=
    Scan.delivers_lines hending lines hl (.start ⟨0, 0, 0⟩ rfl) false 0
  obtain ⟨us, s, hend, hkinds', hfinished, hqueue⟩ := Scan.delivers_end hlast taken
  have hall : (ts ++ us).map Token.kind =
      .blockMappingStart :: ((l :: lines).flatMap Line.kinds ++ [.blockEnd, .streamEnd]) := by
    rw [List.map_append, hkinds, hkinds', Scan.opening, if_neg Bool.false_ne_true, List.append_assoc]
    rfl
  refine ⟨ts ++ us, Scan.tokens_of_delivers hacceptable (hlines.trans hend) hfinished hqueue ?_, hall⟩
  -- The tokens do not use the fuel up, since every line has a character.
  have hlength := length_of_kinds hall
  have hshort := length_le_length_join (l :: lines)
  have hlonger : (Line.join (l :: lines)).length ≤ (Line.join (l :: lines) ++ ending).length :=
    (List.sublist_append_left _ _).length_le
  omega

end Keyring.Yaml
