import Keyring.Hex
import Keyring.Text.Quoted
import Mathlib.Algebra.Group.Nat.Defs
/-!
# Quoted text reads back

What stands for a character between quotes tells the character and where it ends (`unescape_append`),
so a quoted text tells the text and where it ends, whatever follows it (`quoted_append_inj`).
-/

namespace Keyring.Text

variable {q c d : Char} {cs ds e rest x y : List Char}

/-! ## Hex digits -/

/-- The number that hex digits stand for. -/
def hexValue (cs : List Char) : Nat :=
  cs.foldl (fun n c => n * 16 + (Hex.digit? c).getD 0) 0

theorem length_hexDigits (width n : Nat) : (hexDigits width n).length = width := by
  induction width generalizing n with
  | zero => rfl
  | succ width ih => simp [hexDigits, ih]

theorem hexValue_hexDigits (width n : Nat) : hexValue (hexDigits width n) = n % 16 ^ width := by
  induction width generalizing n with
  | zero => simp [hexValue, hexDigits, Nat.mod_one]
  | succ width ih =>
    have hdigit := Hex.digit?_hexDigit (Nat.mod_lt n (show 0 < 16 by decide))
    unfold hexValue at ih ⊢
    rw [hexDigits, List.foldl_append, ih, List.foldl_cons, List.foldl_nil, hdigit, Nat.pow_succ',
      Nat.mod_mul, Option.getD_some]
    omega

/-! ## Escapes -/

/-- The quotes that a text may stand between. -/
def IsQuote (q : Char) : Prop :=
  q = '\x27' ∨ q = '"'

theorem isQuote_quoteFor (cs : List Char) : IsQuote (quoteFor cs) := by
  unfold quoteFor
  split
  · exact .inr rfl
  · exact .inl rfl

/-- How many digits follow a letter after a backslash. -/
def codeWidth? (letter : Char) : Option Nat :=
  if letter = 'x' then some 2 else if letter = 'u' then some 4 else if letter = 'U' then some 8
  else none

/-- The character that one letter after a backslash stands for. -/
def unescapeShort (letter : Char) : Char :=
  if letter = 't' then '\t' else if letter = 'n' then '\n' else if letter = 'r' then '\r'
  else letter

/-- The character that the first characters between quotes stand for, and the others. -/
def unescape : List Char → Option (Char × List Char)
  | [] => none
  | '\\' :: letter :: rest =>
    match codeWidth? letter with
    | some width => some (Char.ofNat (hexValue (rest.take width)), rest.drop width)
    | none => some (unescapeShort letter, rest)
  | c :: rest => some (c, rest)

/-- What stands for `c` between quotes `q`. -/
inductive Escape (q c : Char) : List Char → Prop
  | plain : c ≠ q → c ≠ '\\' → Escape q c [c]
  | short {letter} : codeWidth? letter = none → unescapeShort letter = c → Escape q c ['\\', letter]
  | code {letter width} : codeWidth? letter = some width → c.toNat < 16 ^ width →
    Escape q c ('\\' :: letter :: hexDigits width c.toNat)

theorem escape_numericEscape (q c : Char) : Escape q c (numericEscape c.toNat) := by
  have hlt : c.toNat < 0x110000 := by
    rcases c.valid with h | h
    · exact Nat.lt_trans h (by decide)
    · exact h.2
  unfold numericEscape
  split
  · next h => exact .code rfl h
  split
  · next h => exact .code rfl h
  · exact .code rfl (Nat.lt_trans hlt (by decide))

theorem escape_escapeIn (hq : IsQuote q) (c : Char) : Escape q c (escapeIn q c) := by
  unfold escapeIn
  split
  · next h =>
    rcases h with rfl | rfl
    · rcases hq with rfl | rfl <;> exact .short (by decide) (by decide)
    · exact .short (by decide) (by decide)
  next hplain =>
  split
  · next h => exact .short (by decide) (h ▸ by decide)
  split
  · next h => exact .short (by decide) (h ▸ by decide)
  split
  · next h => exact .short (by decide) (h ▸ by decide)
  split
  · exact .plain (fun h => hplain (.inl h)) fun h => hplain (.inr h)
  · exact escape_numericEscape q c

/-- What stands for a character is read as that character, whatever follows. -/
theorem Escape.unescape_append (h : Escape q c e) (rest : List Char) :
    unescape (e ++ rest) = some (c, rest) := by
  cases h with
  | plain _ hslash =>
    rw [List.singleton_append, unescape]
    rintro letter rest' h
    exact fun _ => hslash h
  | short hwidth hletter => simp [unescape, hwidth, hletter]
  | @code letter width hwidth hlt =>
    have htake : (hexDigits width c.toNat ++ rest).take width = hexDigits width c.toNat :=
      List.take_left' (length_hexDigits width c.toNat)
    have hdrop : (hexDigits width c.toNat ++ rest).drop width = rest :=
      List.drop_left' (length_hexDigits width c.toNat)
    simp only [List.cons_append, unescape, hwidth, htake, hdrop]
    rw [hexValue_hexDigits, Nat.mod_eq_of_lt hlt, Char.ofNat_toNat]

/-- Nothing between the quotes starts with the quote. -/
theorem Escape.exists_eq_cons (h : Escape q c e) (hq : IsQuote q) : ∃ d more, e = d :: more ∧ d ≠ q := by
  have hslash : '\\' ≠ q := by rcases hq with rfl | rfl <;> decide
  cases h with
  | plain hne _ => exact ⟨c, [], rfl, hne⟩
  | short | code => exact ⟨_, _, rfl, hslash⟩

/-! ## Texts -/

theorem escapeIn_append_ne (hq : IsQuote q) (c : Char) (cs x y : List Char) :
    (c :: cs).flatMap (escapeIn q) ++ x ≠ q :: y := by
  obtain ⟨d, more, he, hne⟩ := (escape_escapeIn hq c).exists_eq_cons hq
  rw [List.flatMap_cons, he]
  exact fun h => hne (List.head_eq_of_cons_eq h)

/-- The characters of a text are told one by one, up to the quote. -/
theorem flatMap_escapeIn_inj (hq : IsQuote q)
    (h : cs.flatMap (escapeIn q) ++ q :: x = ds.flatMap (escapeIn q) ++ q :: y) : cs = ds ∧ x = y := by
  induction cs generalizing ds with
  | nil =>
    cases ds with
    | nil => exact ⟨rfl, List.tail_eq_of_cons_eq h⟩
    | cons d ds => exact absurd h.symm (escapeIn_append_ne hq d ds _ x)
  | cons c cs ih =>
    cases ds with
    | nil => exact absurd h (escapeIn_append_ne hq c cs _ y)
    | cons d ds =>
      rw [List.flatMap_cons, List.flatMap_cons, List.append_assoc, List.append_assoc] at h
      have hread := congrArg unescape h
      rw [(escape_escapeIn hq c).unescape_append, (escape_escapeIn hq d).unescape_append,
        Option.some.injEq, Prod.mk.injEq] at hread
      obtain ⟨rfl, hrest⟩ := hread
      obtain ⟨rfl, hxy⟩ := ih hrest
      exact ⟨rfl, hxy⟩

theorem quotedList_append_inj (h : quotedList cs ++ x = quotedList ds ++ y) : cs = ds ∧ x = y := by
  simp only [quotedList, List.cons_append, List.append_assoc, List.nil_append] at h
  obtain ⟨hquote, hrest⟩ := List.cons_eq_cons.1 h
  rw [← hquote] at hrest
  exact flatMap_escapeIn_inj (isQuote_quoteFor cs) hrest

/-- A quoted text tells the text and what follows it. -/
theorem quoted_append_inj {s t more other : String} :
    quoted s ++ more = quoted t ++ other ↔ s = t ∧ more = other := by
  constructor
  · intro h
    have hlist := congrArg String.toList h
    simp only [quoted, String.toList_append, String.toList_ofList] at hlist
    obtain ⟨hst, hmore⟩ := quotedList_append_inj hlist
    exact ⟨String.toList_inj.1 hst, String.toList_inj.1 hmore⟩
  · rintro ⟨rfl, rfl⟩
    rfl

end Keyring.Text
