import Keyring.Json.Reader
import Keyring.Json.Writer
import Mathlib.Data.List.Nodup
/-!
# JSON reads back

What the writer writes, on one line or indented, the reader reads as the same value, whatever white
space follows it (`read_write`). Numbers are left out, and members of an object must have different
names. Strings may hold any characters: the writer puts none of them on the line that is not a
printable seven-bit character, so no value on one line holds a line end (`isShown_of_mem_line`).
-/

namespace Keyring

/-- A new key comes last. -/
theorem Entries.set_of_not_mem {α β : Type} [BEq α] [LawfulBEq α] {k : α} {es : List (α × β)}
    (hk : k ∉ es.map (·.1)) (v : β) : set k v es = es ++ [(k, v)] := by
  induction es with
  | nil => rfl
  | cons e es ih =>
    rw [List.map_cons, List.mem_cons, not_or] at hk
    simp [set, Ne.symm hk.1, ih hk.2]

namespace Json

open Text

/-! ## Inputs -/

namespace Input

variable {i : Input} {front rest : List Char}

@[simp] theorem drop_drop (i : Input) (m n : Nat) : (i.drop m).drop n = i.drop (m + n) := by
  simp [drop, Nat.add_assoc]

theorem rest_drop (hi : i.rest = front ++ rest) : (i.drop front.length).rest = rest := by
  simp [drop, hi]

theorem rest_drop_one {c : Char} (hi : i.rest = c :: rest) : (i.drop 1).rest = rest := by
  simp [drop, hi]

/-- White space is skipped up to what follows it. -/
theorem skipGap_eq (hi : i.rest = front ++ rest) (hfront : ∀ c ∈ front, isGap c = true)
    (hrest : ∀ c ∈ rest.head?, isGap c = false) : i.skipGap = i.drop front.length := by
  have hstop : rest.takeWhile isGap = [] := by
    cases rest with
    | nil => rfl
    | cons c rest => exact List.takeWhile_cons_of_neg (by simpa using hrest c rfl)
  rw [skipGap, hi, List.takeWhile_append_of_pos hfront, hstop, List.append_nil]

theorem skipGap_of_head (hrest : ∀ c ∈ i.rest.head?, isGap c = false) : i.skipGap = i :=
  skipGap_eq (List.nil_append i.rest).symm (by simp) hrest

theorem not_startsWith {c d : Char} {s : String} (hi : i.rest.head? = some c)
    (hs : s.toList.head? = some d) (hne : d ≠ c) : i.startsWith s = false := by
  obtain ⟨cs, hcs⟩ := List.head?_eq_some_iff.1 hi
  obtain ⟨ds, hds⟩ := List.head?_eq_some_iff.1 hs
  simp [startsWith, hcs, hds, List.isPrefixOf, hne]

end Input

/-! ## Strings -/

/-- A printable seven-bit character. -/
def IsShown (c : Char) : Prop :=
  0x20 ≤ c.toNat ∧ c.toNat ≤ 0x7E

instance (c : Char) : Decidable (IsShown c) := inferInstanceAs (Decidable (_ ∧ _))

theorem isShown_hexDigit {n : Nat} (hn : n < 16) : IsShown (hexDigit n) := by
  have all : ∀ m : Fin 16, IsShown (hexDigit m) := by decide
  exact all ⟨n, hn⟩

theorem isShown_unitEscape {n : Nat} {c : Char} (hc : c ∈ unitEscape n) : IsShown c := by
  simp only [unitEscape, hexDigits, List.mem_cons, List.mem_append, List.not_mem_nil, or_false,
    false_or] at hc
  rcases hc with rfl | rfl | ((rfl | rfl) | rfl) | rfl
  · decide
  · decide
  all_goals exact isShown_hexDigit (Nat.mod_lt _ (by decide))

/-- What stands for a character in a string. -/
inductive Escape (c : Char) : List Char → Prop
  | short {e} : IsShown e → e ≠ 'u' → shortEscape? e = some c → Escape c ['\\', e]
  | plain : IsShown c → c ≠ '"' → c ≠ '\\' → Escape c [c]
  | unit : c.toNat < 0x10000 → Escape c (unitEscape c.toNat)
  | pair : ¬ c.toNat < 0x10000 →
    Escape c (unitEscape (0xD800 + (c.toNat - 0x10000) / 0x400) ++
      unitEscape (0xDC00 + (c.toNat - 0x10000) % 0x400))

theorem escape_escapeChar (c : Char) : Escape c (escapeChar c) := by
  have heq {n : Nat} (hn : c.toNat = n) : c = Char.ofNat n := by rw [← hn, Char.ofNat_toNat]
  unfold escapeChar
  split
  · next hc => exact .short (by decide) (by decide) (by rw [hc]; rfl)
  split
  · next hc => exact .short (by decide) (by decide) (by rw [hc]; rfl)
  split
  · next hc => exact .short (by decide) (by decide) (by rw [hc]; rfl)
  split
  · next hc => exact .short (by decide) (by decide) (by rw [hc]; rfl)
  split
  · next hc => exact .short (by decide) (by decide) (by rw [hc]; rfl)
  split
  · next hc => exact .short (by decide) (by decide) (by rw [heq hc]; rfl)
  split
  · next hc => exact .short (by decide) (by decide) (by rw [heq hc]; rfl)
  split
  · next hquote hslash _ _ _ _ _ hc => exact .plain (by simpa [IsShown] using hc) hquote hslash
  split
  · next hc => exact .unit hc
  · next hc => exact .pair hc

theorem Escape.isShown {c d : Char} {cs : List Char} (h : Escape c cs) (hd : d ∈ cs) : IsShown d := by
  cases h with
  | short he =>
    rcases List.mem_pair.1 hd with rfl | rfl
    · decide
    · exact he
  | plain hc => rwa [List.mem_singleton.1 hd]
  | unit => exact isShown_unitEscape hd
  | pair => exact (List.mem_append.1 hd).elim isShown_unitEscape isShown_unitEscape

theorem isShown_writeString {s : String} {c : Char} (hc : c ∈ writeString s) : IsShown c := by
  simp only [writeString, List.mem_cons, List.mem_append, List.not_mem_nil, or_false,
    List.mem_flatMap] at hc
  rcases hc with rfl | ⟨d, -, hc⟩ | rfl
  · decide
  · exact (escape_escapeChar d).isShown hc
  · decide

/-- The four digits of a code unit are read as its number, if something follows them. -/
theorem fourDigits?_hexDigits {n : Nat} (hn : n < 0x10000) {rest : List Char} (hrest : rest ≠ []) :
    fourDigits? (hexDigits 4 n ++ rest) = some n := by
  obtain ⟨c, rest, rfl⟩ := List.exists_cons_of_ne_nil hrest
  have hdigit (m : Nat) : Hex.digit? (hexDigit (m % 16)) = some (m % 16) :=
    Hex.digit?_hexDigit (Nat.mod_lt m (by decide))
  simp [fourDigits?, hexDigits, hdigit]
  omega

theorem length_unitEscape (n : Nat) : (unitEscape n).length = 6 := by
  simp [unitEscape, hexDigits]

theorem toNat_lt (c : Char) : c.toNat < 0xD800 ∨ 0xDFFF < c.toNat ∧ c.toNat < 0x110000 :=
  c.valid

variable {i : Input} {rest : List Char}

/-- The escape of a character below the first 65536 is read as the character. -/
theorem readUnit_unitEscape {c : Char} (hc : c.toNat < 0x10000) (hrest : rest ≠ [])
    (hi : i.rest = unitEscape c.toNat ++ rest) :
    readUnit (i.drop 1) = .ok (c, i.drop 6) := by
  have hvalid := toNat_lt c
  have hdigits : (i.drop 1).rest.drop 1 = hexDigits 4 c.toNat ++ rest := by
    simp [Input.drop, hi, unitEscape]
  have hhigh : isHighSurrogate c.toNat = false := by
    simp [isHighSurrogate]
    omega
  have hlow : isLowSurrogate c.toNat = false := by
    simp [isLowSurrogate]
    omega
  simp [readUnit, hdigits, fourDigits?_hexDigits hc hrest, hhigh, charOfUnit, hlow,
    Char.ofNat_toNat]

/-- A character beyond the first 65536 is that of its two surrogates. -/
theorem charOfPair_surrogates {c : Char} (hc : ¬ c.toNat < 0x10000) :
    isHighSurrogate (0xD800 + (c.toNat - 0x10000) / 0x400) = true ∧
      isLowSurrogate (0xDC00 + (c.toNat - 0x10000) % 0x400) = true ∧
      charOfPair (0xD800 + (c.toNat - 0x10000) / 0x400) (0xDC00 + (c.toNat - 0x10000) % 0x400) = c := by
  have hvalid := toNat_lt c
  generalize hn : (c.toNat - 0x10000) / 0x400 = high
  generalize hm : (c.toNat - 0x10000) % 0x400 = low
  have hnumber : 0x10000 + (0xD800 + high - 0xD800) * 0x400 + (0xDC00 + low - 0xDC00) = c.toNat := by
    omega
  refine ⟨?_, ?_, by rw [charOfPair, hnumber, Char.ofNat_toNat]⟩
  · simp [isHighSurrogate]
    omega
  · simp [isLowSurrogate]
    omega

/-- The escapes of a pair of surrogates are read as the character that they stand for. -/
theorem readUnit_pair {c : Char} (hc : ¬ c.toNat < 0x10000) (hrest : rest ≠ [])
    (hi : i.rest = unitEscape (0xD800 + (c.toNat - 0x10000) / 0x400) ++
      (unitEscape (0xDC00 + (c.toNat - 0x10000) % 0x400) ++ rest)) :
    readUnit (i.drop 1) = .ok (c, i.drop 12) := by
  obtain ⟨hhigh, hlow, hpair⟩ := charOfPair_surrogates hc
  have hvalid := toNat_lt c
  generalize hn : (c.toNat - 0x10000) / 0x400 = high at hi hhigh hpair
  generalize hm : (c.toNat - 0x10000) % 0x400 = low at hi hlow hpair
  have hfirst : (i.drop 1).rest.drop 1 =
      hexDigits 4 (0xD800 + high) ++ (unitEscape (0xDC00 + low) ++ rest) := by
    simp [Input.drop, hi, unitEscape]
  have hsecond : (i.drop 6).rest = unitEscape (0xDC00 + low) ++ rest := by
    rw [← length_unitEscape (0xD800 + high)]
    exact Input.rest_drop hi
  have hafter : (i.drop 6).rest.drop 2 = hexDigits 4 (0xDC00 + low) ++ rest := by
    simp [hsecond, unitEscape]
  have hstart : (i.drop 6).startsWith "\\u" = true := by
    simp [Input.startsWith, hsecond, unitEscape]
  -- The reader looks for a second escape only if more follows than that.
  have hlong : 6 < ((i.drop 6).rest.take 7).length := by
    have := List.length_pos_iff.2 hrest
    rw [hsecond, List.length_take, List.length_append, length_unitEscape]
    omega
  have hmore : unitEscape (0xDC00 + low) ++ rest ≠ [] := by simp [unitEscape]
  have hread := fourDigits?_hexDigits (n := 0xD800 + high) (by omega) hmore
  have hread' := fourDigits?_hexDigits (n := 0xDC00 + low) (by omega) hrest
  rw [← hfirst] at hread
  rw [← hafter] at hread'
  simp only [readUnit, hread, Input.drop_drop, hhigh, hstart, Bool.true_and, hlong, decide_true,
    if_true, hread', hlow, hpair]

/-- A character goes before the others that are read. -/
theorem readChars_bind (c : Char) (start fuel : Nat) (j : Input) : (do
      let (ds, k) ← readChars start fuel j
      pure (c :: ds, k)) = (readChars start fuel j).map fun r => (c :: r.1, r.2) := by
  cases readChars start fuel j <;> rfl

/-- What stands for a character is read as the character, and the rest goes on behind it. -/
theorem readChars_escape {c : Char} {cs : List Char} (hcs : Escape c cs) (start fuel : Nat)
    (hrest : rest ≠ []) (hi : i.rest = cs ++ rest) :
    readChars start (fuel + 1) i =
      (readChars start fuel (i.drop cs.length)).map fun r => (c :: r.1, r.2) := by
  cases hcs with
  | @short e _ hu he =>
    obtain ⟨d, rest, rfl⟩ := List.exists_cons_of_ne_nil hrest
    have hlist : i.rest = '\\' :: e :: d :: rest := hi
    rw [readChars]
    simp only [hlist, he]
    exact readChars_bind c start fuel _
  | plain hc hquote hslash =>
    have hlist : i.rest = c :: rest := hi
    have hlow : ¬ c.toNat < 0x20 := Nat.not_lt.2 hc.1
    rw [readChars]
    split
    · next he => rw [hlist] at he; cases he
    · next he => rw [hlist] at he; cases he; exact absurd rfl hquote
    · next he => rw [hlist] at he; cases he; exact absurd rfl hslash
    · next he => rw [hlist] at he; cases he; exact absurd rfl hslash
    · next he => rw [hlist] at he; cases he; exact absurd rfl hslash
    · next he =>
      rw [hlist] at he
      cases he
      rw [if_neg hlow]
      exact readChars_bind c start fuel _
  | unit hc =>
    have hlist : i.rest = '\\' :: 'u' :: (hexDigits 4 c.toNat ++ rest) := hi
    rw [readChars]
    simp only [hlist, readUnit_unitEscape hc hrest hi]
    rw [length_unitEscape]
    exact readChars_bind c start fuel _
  | pair hc =>
    rw [List.append_assoc] at hi
    have hlist : i.rest = '\\' :: 'u' :: (hexDigits 4 (0xD800 + (c.toNat - 0x10000) / 0x400) ++
        (unitEscape (0xDC00 + (c.toNat - 0x10000) % 0x400) ++ rest)) := hi
    rw [readChars]
    simp only [hlist, readUnit_pair hc hrest hi]
    rw [List.length_append, length_unitEscape, length_unitEscape]
    exact readChars_bind c start fuel _

theorem Escape.length_pos {c : Char} {cs : List Char} (h : Escape c cs) : 0 < cs.length := by
  cases h with
  | short | plain | unit | pair => simp [unitEscape]

/-- What stands for the characters of a string is read up to the closing quote. -/
theorem readChars_flatMap (start : Nat) (cs : List Char) {fuel : Nat}
    (hfuel : (cs.flatMap escapeChar).length < fuel)
    (hi : i.rest = cs.flatMap escapeChar ++ '"' :: rest) :
    readChars start fuel i = .ok (cs, i.drop ((cs.flatMap escapeChar).length + 1)) := by
  induction cs generalizing i fuel with
  | nil =>
    obtain ⟨fuel, rfl⟩ := Nat.exists_eq_succ_of_ne_zero (Nat.ne_of_gt hfuel)
    have hquote : i.rest = '"' :: rest := hi
    simp only [readChars, hquote]
    rfl
  | cons c cs ih =>
    have hescape := escape_escapeChar c
    have hpos := hescape.length_pos
    rw [List.flatMap_cons, List.append_assoc] at hi
    rw [List.flatMap_cons, List.length_append] at hfuel ⊢
    obtain ⟨fuel, rfl⟩ := Nat.exists_eq_succ_of_ne_zero (Nat.ne_of_gt (Nat.zero_lt_of_lt hfuel))
    have hfuel' : (cs.flatMap escapeChar).length < fuel := by omega
    have hread := ih hfuel' (Input.rest_drop hi)
    rw [readChars_escape hescape start fuel (by simp) hi, hread, Input.drop_drop]
    simp [Except.map, Nat.add_assoc]

/-- A string is read as it was written. -/
theorem readString_writeString (s : String) (hi : i.rest = writeString s ++ rest) :
    readString i = .ok (s, i.drop (writeString s).length) := by
  have hafter : (i.drop 1).rest = s.toList.flatMap escapeChar ++ '"' :: rest := by
    simp [Input.drop, hi, writeString]
  have hfuel : (s.toList.flatMap escapeChar).length < i.rest.length + 1 := by
    rw [hi, writeString]
    simp
    omega
  have hlength : (writeString s).length = 1 + ((s.toList.flatMap escapeChar).length + 1) := by
    simp [writeString]
    omega
  rw [readString, readChars_flatMap i.position s.toList hfuel hafter, Input.drop_drop, hlength]
  simp [bind, Except.bind, pure, Except.pure]

/-! ## Values -/

/-- A value without numbers, in which no object has two members of one name. -/
inductive Value.IsPlain : Value → Prop
  | null : IsPlain .null
  | bool (b) : IsPlain (.bool b)
  | str (s) : IsPlain (.str s)
  | list {items} : (∀ v ∈ items, IsPlain v) → IsPlain (.list items)
  | object {members} : (members.map (·.1)).Nodup → (∀ e ∈ members, IsPlain e.2) →
    IsPlain (.object members)

theorem writeItems_eq (style : Style) (depth : Nat) (items : List Value) :
    writeItems style depth items = items.map (writeValue style depth) := by
  induction items with
  | nil => rfl
  | cons v items ih => rw [writeItems, ih, List.map_cons]

/-- What stands for a member. -/
def writeMember (style : Style) (depth : Nat) (e : String × Value) : List Char :=
  writeString e.1 ++ ':' :: ' ' :: writeValue style depth e.2

theorem writeMembers_eq (style : Style) (depth : Nat) (members : List (String × Value)) :
    writeMembers style depth members = members.map (writeMember style depth) := by
  induction members with
  | nil => rfl
  | cons e members ih => rw [writeMembers, ih, List.map_cons, writeMember]

namespace Style

variable {style : Style} {depth : Nat} {c : Char}

theorem isGap_newline (hc : c ∈ style.newline depth) : Input.isGap c = true := by
  cases style with
  | line => cases hc
  | indented width =>
    rcases List.mem_cons.1 hc with rfl | hc
    · rfl
    · rw [List.eq_of_mem_replicate hc]
      rfl

/-- Two items are parted by a comma and white space. -/
theorem exists_separator (style : Style) (depth : Nat) :
    ∃ gap, style.separator depth = ',' :: gap ∧ ∀ c ∈ gap, Input.isGap c = true := by
  cases style with
  | line => exact ⟨[' '], rfl, by simp [Input.isGap]⟩
  | indented width => exact ⟨_, rfl, fun c hc => isGap_newline hc⟩

/-- What is enough for an item and more, in front of a limit, leaves enough for either. -/
theorem lt_of_separator (style : Style) {depth fuel : Nat} {item more : List Char}
    (hfuel : (item ++ style.separator depth ++ more).length < fuel + 1) :
    item.length ≤ fuel ∧ more.length < fuel := by
  obtain ⟨gap, hgap, -⟩ := style.exists_separator depth
  rw [List.length_append, List.length_append, hgap, List.length_cons] at hfuel
  omega

end Style

/-- A value is read as it was written, whatever follows it. Each character that was written pays for one
step of the reader. -/
def Value.ReadsBack (style : Style) (v : Value) : Prop :=
  ∀ (depth fuel : Nat) (i : Input) (rest : List Char), (writeValue style depth v).length ≤ fuel →
    i.rest = writeValue style depth v ++ rest →
    readValue fuel i = .ok (v, i.drop (writeValue style depth v).length)

/-- A character that a value starts with. -/
def IsOpening (c : Char) : Prop :=
  Input.isGap c = false ∧ c ≠ ']' ∧ c.toNat ≠ 0xFEFF

instance (c : Char) : Decidable (IsOpening c) := inferInstanceAs (Decidable (_ ∧ _))

theorem head?_enclose (style : Style) (depth : Nat) (opening closing : Char) (items : List (List Char)) :
    (enclose style depth opening closing items).head? = some opening := by
  unfold enclose
  split
  · rfl
  · rfl

theorem Value.IsPlain.exists_head {v : Value} (hv : v.IsPlain) (style : Style) (depth : Nat) :
    ∃ c, (writeValue style depth v).head? = some c ∧ IsOpening c := by
  cases hv with
  | null => exact ⟨_, rfl, by decide⟩
  | bool b => cases b <;> exact ⟨_, rfl, by decide⟩
  | str s => exact ⟨_, rfl, by decide⟩
  | list => exact ⟨'[', head?_enclose .., by decide⟩
  | object => exact ⟨'\x7b', head?_enclose .., by decide⟩

variable {style : Style}

/-- Texts that are joined start as the first of them does. -/
theorem head?_intercalate {c : Char} {cs : List Char} (hc : cs.head? = some c) (sep : List Char)
    (more : List (List Char)) : (sep.intercalate (cs :: more)).head? = some c := by
  cases more with
  | nil => rw [List.intercalate_singleton, hc]
  | cons ds more =>
    rw [List.intercalate_cons_cons, List.append_assoc, List.head?_append, hc]
    rfl

/-- After an item and a separator the reader is at the next item. -/
theorem skip_separator {depth : Nat} {front next : List Char}
    (hi : i.rest = front ++ (style.separator depth ++ next))
    (hnext : ∀ c ∈ next.head?, Input.isGap c = false) :
    (∃ more, (i.drop front.length).skipGap.rest = ',' :: more) ∧
      ((i.drop front.length).skipGap.drop 1).skipGap = i.drop (front ++ style.separator depth).length := by
  obtain ⟨gap, hgap, hisGap⟩ := style.exists_separator depth
  rw [hgap] at hi ⊢
  have hafter := Input.rest_drop hi
  have hskip := Input.skipGap_of_head (i := i.drop front.length) (by simp [hafter, Input.isGap])
  have hcomma : ((i.drop front.length).drop 1).rest = gap ++ next :=
    Input.rest_drop_one hafter
  rw [hskip, Input.skipGap_eq hcomma hisGap hnext]
  exact ⟨⟨_, hafter⟩, by simp [Nat.add_assoc, Nat.add_comm 1]⟩

/-- After the last item the reader is at the closing bracket. -/
theorem skip_closing {front gap : List Char} {c : Char} (hi : i.rest = front ++ (gap ++ c :: rest))
    (hgap : ∀ c ∈ gap, Input.isGap c = true) (hc : Input.isGap c = false) :
    (i.drop front.length).skipGap = i.drop (front ++ gap).length ∧
      (i.drop (front ++ gap).length).rest = c :: rest := by
  refine ⟨?_, Input.rest_drop (by rw [hi, List.append_assoc])⟩
  rw [Input.skipGap_eq (Input.rest_drop hi) hgap (by simpa using hc)]
  simp

/-- The items of a list are read up to its closing bracket. -/
theorem readItems_eq {items : List Value} (hne : items ≠ []) (hplain : ∀ v ∈ items, v.IsPlain)
    (hback : ∀ v ∈ items, v.ReadsBack style) (depth : Nat) {gap : List Char}
    (hgap : ∀ c ∈ gap, Input.isGap c = true) {fuel : Nat} {text : List Char}
    (htext : text = (style.separator depth).intercalate (writeItems style depth items))
    (hfuel : text.length < fuel) (hi : i.rest = text ++ (gap ++ ']' :: rest)) :
    readItems fuel i = .ok (items, i.drop ((text ++ gap).length + 1)) := by
  rw [writeItems_eq] at htext
  induction items generalizing i fuel text with
  | nil => exact absurd rfl hne
  | cons v items ih =>
    obtain ⟨fuel, rfl⟩ := Nat.exists_eq_succ_of_ne_zero (Nat.ne_of_gt (Nat.zero_lt_of_lt hfuel))
    have hv := hback v List.mem_cons_self depth fuel i
    cases items with
    | nil =>
      rw [List.map_cons, List.map_nil, List.intercalate_singleton] at htext
      obtain ⟨hskip, hclose⟩ := skip_closing hi hgap (by decide)
      subst htext
      rw [readItems, hv _ (Nat.le_of_lt_succ hfuel) hi]
      simp only [bind, Except.bind, hskip, hclose]
      simp [pure, Except.pure]
    | cons w items =>
      rw [List.map_cons, List.map_cons, List.intercalate_cons_cons, ← List.map_cons] at htext
      generalize hmore : (style.separator depth).intercalate
        ((w :: items).map (writeValue style depth)) = more at htext
      obtain ⟨c, hc, hopening⟩ := (hplain w (by simp)).exists_head style depth
      have hhead := head?_intercalate hc (style.separator depth) (items.map (writeValue style depth))
      rw [← List.map_cons, hmore] at hhead
      subst htext
      have hfuel' := style.lt_of_separator hfuel
      rw [List.append_assoc] at hi
      have hrest := Input.rest_drop hi
      -- Behind the comma the list goes on like a list of the other items.
      have hread := ih (by simp) (fun x hx => hplain x (List.mem_cons_of_mem _ hx))
        (fun x hx => hback x (List.mem_cons_of_mem _ hx)) hmore.symm hfuel'.2 hrest
      rw [List.append_assoc] at hi
      obtain ⟨⟨_, hcomma⟩, hskip⟩ := skip_separator hi (by simp [hhead, hopening.1])
      rw [readItems, hv _ hfuel'.1 hi]
      simp only [bind, Except.bind, hcomma, hskip, hread]
      simp [pure, Except.pure, Nat.add_assoc]

/-- The name of a member is read, and the reader is at its value. -/
theorem member_name (e : String × Value) (depth : Nat)
    (hi : i.rest = writeMember style depth e ++ rest) (hplain : e.2.IsPlain) :
    i.startsWith "\"" = true ∧
    readString i = .ok (e.1, i.drop (writeString e.1).length) ∧
    (i.drop (writeString e.1).length).skipGap = i.drop (writeString e.1).length ∧
    (i.drop (writeString e.1).length).startsWith ":" = true ∧
    ((i.drop (writeString e.1).length).drop 1).skipGap = i.drop ((writeString e.1).length + 2) ∧
    (i.drop ((writeString e.1).length + 2)).rest = writeValue style depth e.2 ++ rest := by
  obtain ⟨c, hvalue, hopening⟩ := hplain.exists_head style depth
  rw [writeMember, List.append_assoc] at hi
  have hafter := Input.rest_drop hi
  have hcolon : ((i.drop (writeString e.1).length).drop 1).rest =
      [' '] ++ (writeValue style depth e.2 ++ rest) :=
    Input.rest_drop_one hafter
  have hgap := Input.skipGap_eq hcolon (by simp [Input.isGap]) (by simp [hvalue, hopening.1])
  refine ⟨?_, readString_writeString e.1 hi, ?_, ?_, ?_, ?_⟩
  · simp [Input.startsWith, hi, writeString]
  · exact Input.skipGap_of_head (by simp [hafter, Input.isGap])
  · simp [Input.startsWith, hafter]
  · simpa using hgap
  · simpa using Input.rest_drop hcolon

/-- One member is read, and the reader is at what follows it. -/
theorem readMembers_member (e : String × Value) (before : List (String × Value)) (depth : Nat)
    {fuel : Nat} (hi : i.rest = writeMember style depth e ++ rest) (hplain : e.2.IsPlain)
    (hback : e.2.ReadsBack style) (hfuel : (writeMember style depth e).length ≤ fuel) :
    readMembers (fuel + 1) before i =
      let j := (i.drop (writeMember style depth e).length).skipGap
      match j.rest with
      | '\x7d' :: _ => .ok (Entries.set e.1 e.2 before, j.drop 1)
      | ',' :: _ => readMembers fuel (Entries.set e.1 e.2 before) (j.drop 1).skipGap
      | _ => .error (j.fault "Expecting ',' delimiter") := by
  obtain ⟨hquote, hname, hskip, hcolon, hgap, hvalue⟩ := member_name e depth hi hplain
  have hlength : (writeMember style depth e).length =
      (writeString e.1).length + 2 + (writeValue style depth e.2).length := by
    simp [writeMember]
    omega
  have hread := hback depth fuel _ rest (by omega) hvalue
  rw [Input.drop_drop, ← hlength] at hread
  rw [readMembers]
  simp only [hquote, hname, hskip, hcolon, hgap, hread, bind, Except.bind]
  rfl

/-- The members of an object are read up to its closing brace, and come behind those before them. -/
theorem readMembers_eq {members : List (String × Value)} (hne : members ≠ [])
    (hplain : ∀ e ∈ members, e.2.IsPlain) (hback : ∀ e ∈ members, e.2.ReadsBack style)
    (depth : Nat) {gap : List Char} (hgap : ∀ c ∈ gap, Input.isGap c = true) {fuel : Nat}
    {text : List Char} {before : List (String × Value)}
    (hnames : ((before ++ members).map (·.1)).Nodup)
    (htext : text = (style.separator depth).intercalate (writeMembers style depth members))
    (hfuel : text.length < fuel) (hi : i.rest = text ++ (gap ++ '\x7d' :: rest)) :
    readMembers fuel before i = .ok (before ++ members, i.drop ((text ++ gap).length + 1)) := by
  rw [writeMembers_eq] at htext
  induction members generalizing i fuel text before with
  | nil => exact absurd rfl hne
  | cons e members ih =>
    obtain ⟨fuel, rfl⟩ := Nat.exists_eq_succ_of_ne_zero (Nat.ne_of_gt (Nat.zero_lt_of_lt hfuel))
    have he := hplain e List.mem_cons_self
    have hv := hback e List.mem_cons_self
    have hset : Entries.set e.1 e.2 before = before ++ [e] := by
      refine Entries.set_of_not_mem (fun he => ?_) e.2
      rw [List.map_append] at hnames
      exact (List.nodup_append.1 hnames).2.2 _ he _ (by simp) rfl
    cases members with
    | nil =>
      rw [List.map_cons, List.map_nil, List.intercalate_singleton] at htext
      subst htext
      obtain ⟨hskip, hclose⟩ := skip_closing hi hgap (by decide)
      rw [readMembers_member e before depth hi he hv (Nat.le_of_lt_succ hfuel)]
      simp only [hskip, hclose, hset]
      simp
    | cons w members =>
      rw [List.map_cons, List.map_cons, List.intercalate_cons_cons, ← List.map_cons] at htext
      generalize hmore : (style.separator depth).intercalate
        ((w :: members).map (writeMember style depth)) = more at htext
      have hhead : more.head? = some '"' :=
        hmore ▸ head?_intercalate rfl (style.separator depth) (members.map (writeMember style depth))
      subst htext
      have hfuel' := style.lt_of_separator hfuel
      rw [List.append_assoc] at hi
      -- The member that was read joins those before it.
      have hnames' : ((before ++ [e] ++ w :: members).map (·.1)).Nodup := by simpa using hnames
      have hread := ih (by simp) (fun x hx => hplain x (List.mem_cons_of_mem _ hx))
        (fun x hx => hback x (List.mem_cons_of_mem _ hx)) hnames' hmore.symm hfuel'.2
        (Input.rest_drop hi)
      rw [List.append_assoc] at hi
      obtain ⟨⟨_, hcomma⟩, hskip⟩ := skip_separator hi (by simp [hhead, Input.isGap])
      rw [readMembers_member e before depth hi he hv hfuel'.1]
      simp only [hcomma, hskip, hset, hread]
      simp [Nat.add_assoc]

theorem enclose_of_ne {depth : Nat} {opening closing : Char} {items : List (List Char)}
    (hne : items ≠ []) : enclose style depth opening closing items =
      opening :: (style.newline (depth + 1) ++ ((style.separator (depth + 1)).intercalate items ++
        (style.newline depth ++ [closing]))) := by
  rw [enclose, if_neg (by simpa using hne)]
  simp

/-- Behind an opening bracket the reader skips white space up to the first item. -/
theorem skip_opening {depth : Nat} {c : Char} {next : List Char}
    (hi : i.rest = c :: (style.newline depth ++ next))
    (hnext : ∀ d ∈ next.head?, Input.isGap d = false) :
    (i.drop 1).skipGap = i.drop (1 + (style.newline depth).length) ∧
      (i.drop (1 + (style.newline depth).length)).rest = next := by
  have hafter : (i.drop 1).rest = style.newline depth ++ next :=
    Input.rest_drop_one hi
  rw [Input.skipGap_eq hafter (fun _ => Style.isGap_newline) hnext, ← Input.drop_drop]
  exact ⟨rfl, Input.rest_drop hafter⟩

theorem Value.IsPlain.exists_fuel {v : Value} (hv : v.IsPlain) {depth fuel : Nat}
    (hfuel : (writeValue style depth v).length ≤ fuel) : ∃ n, fuel = n + 1 := by
  obtain ⟨c, hc, -⟩ := hv.exists_head style depth
  refine Nat.exists_eq_succ_of_ne_zero ?_
  rintro rfl
  rw [List.eq_nil_of_length_eq_zero (Nat.le_zero.1 hfuel)] at hc
  cases hc

theorem readsBack_list {items : List Value} (hplain : ∀ v ∈ items, v.IsPlain)
    (hback : ∀ v ∈ items, v.ReadsBack style) : (Value.list items).ReadsBack style := by
  intro depth fuel i rest hfuel hi
  obtain ⟨fuel, rfl⟩ := (Value.IsPlain.list hplain).exists_fuel hfuel
  rw [readValue]
  cases items with
  | nil =>
    have hlist : i.rest = '[' :: ']' :: rest := hi
    have hafter : (i.drop 1).rest = ']' :: rest := Input.rest_drop_one hlist
    have hskip := Input.skipGap_of_head (i := i.drop 1) (by simp [hafter, Input.isGap])
    simp only [hlist, hskip]
    simp [Input.startsWith, hafter, writeValue, writeItems, enclose]
  | cons v items =>
    obtain ⟨c, hc, hopening⟩ := (hplain v List.mem_cons_self).exists_head style (depth + 1)
    have hhead := head?_intercalate hc (style.separator (depth + 1)) (writeItems style (depth + 1) items)
    rw [← writeItems] at hhead
    rw [writeValue, enclose_of_ne (by simp [writeItems])] at hi hfuel ⊢
    generalize htext : (style.separator (depth + 1)).intercalate
      (writeItems style (depth + 1) (v :: items)) = text at hi hfuel hhead ⊢
    simp only [List.cons_append, List.append_assoc] at hi
    obtain ⟨hskip, hnext⟩ := skip_opening hi (by simp [hhead, hopening.1])
    have hfuel' : text.length < fuel := by
      simp only [List.length_cons, List.length_append] at hfuel
      omega
    have hread := readItems_eq (by simp) hplain hback (depth + 1) (fun _ => Style.isGap_newline)
      htext.symm hfuel' hnext
    have hstart : (i.drop (1 + (style.newline (depth + 1)).length)).startsWith "]" = false :=
      Input.not_startsWith (by simp [hnext, hhead]) (d := ']') rfl hopening.2.1.symm
    simp only [hi, hskip, hstart, hread, bind, Except.bind, pure, Except.pure]
    simp [Nat.add_assoc, Nat.add_comm 1]

theorem readsBack_object {members : List (String × Value)} (hnames : (members.map (·.1)).Nodup)
    (hplain : ∀ e ∈ members, e.2.IsPlain) (hback : ∀ e ∈ members, e.2.ReadsBack style) :
    (Value.object members).ReadsBack style := by
  intro depth fuel i rest hfuel hi
  obtain ⟨fuel, rfl⟩ := (Value.IsPlain.object hnames hplain).exists_fuel hfuel
  rw [readValue]
  cases members with
  | nil =>
    have hlist : i.rest = '\x7b' :: '\x7d' :: rest := hi
    have hafter : (i.drop 1).rest = '\x7d' :: rest := Input.rest_drop_one hlist
    have hskip := Input.skipGap_of_head (i := i.drop 1) (by simp [hafter, Input.isGap])
    simp only [hlist, hskip]
    simp [Input.startsWith, hafter, writeValue, writeMembers, enclose]
  | cons e members =>
    have hhead : ((style.separator (depth + 1)).intercalate
        (writeMembers style (depth + 1) (e :: members))).head? = some '"' :=
      head?_intercalate rfl _ _
    rw [writeValue, enclose_of_ne (by simp [writeMembers])] at hi hfuel ⊢
    generalize htext : (style.separator (depth + 1)).intercalate
      (writeMembers style (depth + 1) (e :: members)) = text at hi hfuel hhead ⊢
    simp only [List.cons_append, List.append_assoc] at hi
    obtain ⟨hskip, hnext⟩ := skip_opening hi (by simp [hhead, Input.isGap])
    have hfuel' : text.length < fuel := by
      simp only [List.length_cons, List.length_append] at hfuel
      omega
    have hnames' : (([] ++ e :: members).map Prod.fst).Nodup := hnames
    have hread := readMembers_eq (by simp) hplain hback (depth + 1) (fun _ => Style.isGap_newline)
      hnames' htext.symm hfuel' hnext
    have hstart : (i.drop (1 + (style.newline (depth + 1)).length)).startsWith "\x7d" = false :=
      Input.not_startsWith (c := '"') (by simp [hnext, hhead]) (d := '\x7d') rfl (by decide)
    simp only [hi, hskip, hstart, hread, bind, Except.bind, pure, Except.pure]
    simp [Nat.add_assoc, Nat.add_comm 1]

/-- Every value without numbers is read as it was written. -/
theorem Value.IsPlain.readsBack {v : Value} (hv : v.IsPlain) (style : Style) : v.ReadsBack style := by
  induction hv with
  | null =>
    intro depth fuel i rest hfuel hi
    obtain ⟨fuel, rfl⟩ := IsPlain.null.exists_fuel hfuel
    have hlist : i.rest = 'n' :: 'u' :: 'l' :: 'l' :: rest := hi
    rw [readValue]
    simp only [hlist]
    simp [words, Input.startsWith, hlist, writeValue]
    rfl
  | bool b =>
    intro depth fuel i rest hfuel hi
    obtain ⟨fuel, rfl⟩ := (IsPlain.bool b).exists_fuel hfuel
    rw [readValue]
    cases b with
    | false =>
      have hlist : i.rest = 'f' :: 'a' :: 'l' :: 's' :: 'e' :: rest := hi
      simp only [hlist]
      simp [words, Input.startsWith, hlist, writeValue]
      rfl
    | true =>
      have hlist : i.rest = 't' :: 'r' :: 'u' :: 'e' :: rest := hi
      simp only [hlist]
      simp [words, Input.startsWith, hlist, writeValue]
      rfl
  | str s =>
    intro depth fuel i rest hfuel hi
    obtain ⟨fuel, rfl⟩ := (IsPlain.str s).exists_fuel hfuel
    have hlist : i.rest = '"' :: (s.toList.flatMap escapeChar ++ ['"'] ++ rest) := hi
    rw [readValue]
    simp only [hlist, readString_writeString s hi, bind, Except.bind]
    rfl
  | list hplain ih => exact readsBack_list hplain ih
  | object hnames hplain ih => exact readsBack_object hnames hplain ih

/-- A value without numbers is read as it was written, also if white space follows it. -/
theorem read_write {v : Value} (hv : v.IsPlain) (style : Style) (gap : List Char)
    (hgap : ∀ c ∈ gap, Input.isGap c = true) : read ((write style v).toList ++ gap) = .ok v := by
  obtain ⟨c, hc, hopening⟩ := hv.exists_head style 0
  rw [write, String.toList_ofList]
  generalize htext : writeValue style 0 v ++ gap = text
  have hhead : text.head? = some c := by
    rw [← htext, List.head?_append, hc]
    rfl
  have hmark : (text.head?.any fun c => c.toNat == 0xFEFF) = false := by
    simpa [hhead] using hopening.2.2
  have hskip : Input.skipGap ⟨text, 0⟩ = ⟨text, 0⟩ :=
    Input.skipGap_of_head (by simp [hhead, hopening.1])
  have hread := hv.readsBack style 0 (2 * text.length + 2) ⟨text, 0⟩ gap
    (by rw [← htext, List.length_append]; omega) htext.symm
  have hrest : (Input.drop ⟨text, 0⟩ (writeValue style 0 v).length).rest = gap ++ [] := by
    rw [Input.rest_drop htext.symm, List.append_nil]
  have hend := Input.skipGap_eq hrest hgap (by simp)
  have hnil := Input.rest_drop hrest
  rw [read, hmark]
  simp only [hskip, hread, bind, Except.bind, hend, hnil]
  rfl

/-! ## One line -/

theorem isShown_intercalate {items : List (List Char)} (hitems : ∀ x ∈ items, ∀ c ∈ x, IsShown c)
    {c : Char} (hc : c ∈ [',', ' '].intercalate items) : IsShown c := by
  induction items with
  | nil => cases hc
  | cons x items ih =>
    cases items with
    | nil =>
      rw [List.intercalate_singleton] at hc
      exact hitems x List.mem_cons_self c hc
    | cons y items =>
      rw [List.intercalate_cons_cons, List.mem_append, List.mem_append, List.mem_pair] at hc
      rcases hc with (hc | rfl | rfl) | hc
      · exact hitems x List.mem_cons_self c hc
      · decide
      · decide
      · exact ih (fun z hz => hitems z (List.mem_cons_of_mem _ hz)) hc

theorem isShown_enclose {items : List (List Char)} {opening closing : Char} {depth : Nat}
    (ho : IsShown opening) (hcl : IsShown closing) (hitems : ∀ x ∈ items, ∀ c ∈ x, IsShown c)
    {c : Char} (hc : c ∈ enclose .line depth opening closing items) : IsShown c := by
  unfold enclose at hc
  split at hc
  · rcases List.mem_pair.1 hc with rfl | rfl
    · exact ho
    · exact hcl
  · simp only [Style.newline, Style.separator, List.nil_append, List.append_nil, List.mem_cons,
      List.mem_append, List.not_mem_nil, or_false] at hc
    rcases hc with rfl | hc | rfl
    · exact ho
    · exact isShown_intercalate hitems hc
    · exact hcl

theorem isShown_of_all {cs : List Char} (hcs : cs.all (IsShown ·) = true) {c : Char} (hc : c ∈ cs) :
    IsShown c :=
  of_decide_eq_true (List.all_eq_true.1 hcs c hc)

/-- A value on one line is written in printable characters. -/
theorem isShown_of_mem_line {v : Value} (hv : v.IsPlain) {depth : Nat} {c : Char}
    (hc : c ∈ writeValue .line depth v) : IsShown c := by
  induction hv generalizing depth c with
  | null =>
    have hword : c ∈ "null".toList := hc
    exact isShown_of_all (by decide) hword
  | bool b =>
    have hword : c ∈ (if b then "true" else "false").toList := hc
    exact isShown_of_all (by cases b <;> decide) hword
  | str s => exact isShown_writeString hc
  | list _ ih =>
    rw [writeValue, writeItems_eq] at hc
    refine isShown_enclose (by decide) (by decide) (fun x hx d hd => ?_) hc
    obtain ⟨v, hv, rfl⟩ := List.mem_map.1 hx
    exact ih v hv hd
  | object _ _ ih =>
    rw [writeValue, writeMembers_eq] at hc
    refine isShown_enclose (by decide) (by decide) (fun x hx d hd => ?_) hc
    obtain ⟨e, he, rfl⟩ := List.mem_map.1 hx
    simp only [writeMember, List.mem_append, List.mem_cons] at hd
    rcases hd with hd | rfl | rfl | hd
    · exact isShown_writeString hd
    · decide
    · decide
    · exact ih e he hd

end Json

end Keyring
