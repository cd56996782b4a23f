import Keyring.Host
import Keyring.Proofs.Outcome
import Keyring.Proofs.Trim
import Mathlib.Data.List.Nodup
/-!
# Texts

Text reads as it was written (`decode_encode`), also after bytes that may be no text (`decode_append`).
Without carriage returns its line ends stay as they are. Different names that are sorted increase
(`pairwise_mergeSort`).
-/

namespace Keyring

namespace Text

variable {cs : List Char}

/-! ## UTF-8 -/

namespace Utf8

open Outcome

theorem toNat_toUInt8 {n : Nat} (hn : n < 256) : n.toUInt8.toNat = n := by
  rw [Nat.toUInt8_eq, UInt8.toNat_ofNat']
  omega

/-- The ranges of the bytes that continue a character, in numbers. -/
theorem continues_iff (lead b : UInt8) : continues lead b = true ↔
    (if lead.toNat = 0xE0 then 0xA0 else if lead.toNat = 0xF0 then 0x90 else 0x80) ≤ b.toNat ∧
    b.toNat < (if lead.toNat = 0xED then 0xA0 else if lead.toNat = 0xF4 then 0x90 else 0xC0) := by
  have hbeq (k : UInt8) : (lead == k) = decide (lead.toNat = k.toNat) := by
    rw [Bool.eq_iff_iff, beq_iff_eq, decide_eq_true_iff, UInt8.toNat_inj]
  simp only [continues, isContinuation, hbeq, UInt8.le_iff_toNat_le, UInt8.lt_iff_toNat_lt]
  simp only [UInt8.reduceToNat, decide_eq_true_eq]
  split
  · simp [*]
  · split
    · simp [*]
    · split
      · simp [*]
      · split <;> simp [*]

theorem isContinuation_iff (b : UInt8) : isContinuation b = true ↔ 0x80 ≤ b.toNat ∧ b.toNat < 0xC0 := by
  simp [isContinuation, UInt8.le_iff_toNat_le, UInt8.lt_iff_toNat_lt]

theorem width?_eq (b : UInt8) : width? b =
    if b.toNat < 0x80 then some 1 else if b.toNat < 0xC2 then none
    else if b.toNat < 0xE0 then some 2 else if b.toNat < 0xF0 then some 3
    else if b.toNat < 0xF5 then some 4 else none := by
  simp only [width?, UInt8.lt_iff_toNat_lt]
  rfl

theorem continued_of {lead b : UInt8} {tail rest : List UInt8} (hb : continues lead b = true)
    (ht : ∀ x ∈ tail, isContinuation x = true) :
    continued lead (tail.length + 1) (b :: tail ++ rest) = tail.length + 1 := by
  have htake : (tail ++ rest).take tail.length = tail := List.take_left
  have hwhile : tail.takeWhile isContinuation = tail := by
    rw [← List.append_nil tail, List.takeWhile_append_of_pos ht, List.takeWhile_nil]
  rw [List.cons_append, continued, if_pos hb, htake, hwhile, Nat.add_comm]

theorem decodeChar_of {c : Char} {lead : UInt8} {more rest : List UInt8}
    (hwidth : width? lead = some (more.length + 1))
    (hmore : continued lead more.length (more ++ rest) = more.length)
    (hcode : codePoint lead (more.length + 1) more = c.toNat) (offset : Nat) :
    decodeChar offset lead (more ++ rest) = .ok (c, more.length) := by
  rw [decodeChar, hwidth]
  simp [hmore, hcode, Char.ofNat_toNat]

/-- Every character is read as it was written, whatever follows. -/
theorem decodeChar_encodeChar (c : Char) : ∃ lead more, encodeChar c = lead :: more ∧
    ∀ offset rest, decodeChar offset lead (more ++ rest) = .ok (c, more.length) := by
  have hvalid : c.toNat < 0xD800 ∨ 0xDFFF < c.toNat ∧ c.toNat < 0x110000 := c.valid
  rw [encodeChar]
  generalize hn : c.toNat = n at hvalid
  split
  · next h1 =>
    have hlead := toNat_toUInt8 (n := n) (by omega)
    refine ⟨_, [], rfl, fun offset rest => decodeChar_of ?_ ?_ ?_ offset⟩
    · rw [width?_eq, hlead, if_pos h1]
      rfl
    · rfl
    · simp [codePoint, hlead, hn]
  · split
    · next h2 =>
      have hlead := toNat_toUInt8 (n := 0xC0 + n / 0x40) (by omega)
      have hb := toNat_toUInt8 (n := 0x80 + n % 0x40) (by omega)
      refine ⟨_, _, rfl, fun offset rest => decodeChar_of ?_ (continued_of ?_ (by simp)) ?_ offset⟩
      · rw [width?_eq, hlead, if_neg (by omega), if_neg (by omega), if_pos (by omega)]
        rfl
      · rw [continues_iff, hlead, hb, if_neg (by omega), if_neg (by omega), if_neg (by omega),
          if_neg (by omega)]
        omega
      · simp [codePoint, hn]
        omega
    · split
      · next h3 =>
        have hlead := toNat_toUInt8 (n := 0xE0 + n / 0x1000) (by omega)
        have hb := toNat_toUInt8 (n := 0x80 + n / 0x40 % 0x40) (by omega)
        have hb' := toNat_toUInt8 (n := 0x80 + n % 0x40) (by omega)
        refine ⟨_, _, rfl, fun offset rest => decodeChar_of ?_ (continued_of ?_ ?_) ?_ offset⟩
        · rw [width?_eq, hlead, if_neg (by omega), if_neg (by omega), if_neg (by omega),
            if_pos (by omega)]
          rfl
        · rw [continues_iff, hlead, hb]
          constructor <;> split <;> (try split) <;> omega
        · simp only [List.mem_singleton, forall_eq]
          rw [isContinuation_iff, hb']
          omega
        · simp [codePoint, hn]
          omega
      · next h4 =>
        have hlead := toNat_toUInt8 (n := 0xF0 + n / 0x40000) (by omega)
        have hb := toNat_toUInt8 (n := 0x80 + n / 0x1000 % 0x40) (by omega)
        have hb' := toNat_toUInt8 (n := 0x80 + n / 0x40 % 0x40) (by omega)
        have hb'' := toNat_toUInt8 (n := 0x80 + n % 0x40) (by omega)
        refine ⟨_, _, rfl, fun offset rest => decodeChar_of ?_ (continued_of ?_ ?_) ?_ offset⟩
        · rw [width?_eq, hlead, if_neg (by omega), if_neg (by omega), if_neg (by omega),
            if_neg (by omega), if_pos (by omega)]
          rfl
        · rw [continues_iff, hlead, hb]
          constructor <;> split <;> (try split) <;> omega
        · simp only [List.mem_cons, List.not_mem_nil, or_false, forall_eq_or_imp, forall_eq]
          rw [isContinuation_iff, isContinuation_iff, hb', hb'']
          omega
        · simp [codePoint, hn]
          omega

theorem decodeFrom_encode (cs : List Char) (offset : Nat) {fuel : Nat} (hfuel : cs.length ≤ fuel) :
    decodeFrom fuel offset (encode cs) = .ok cs := by
  induction cs generalizing offset fuel with
  | nil => cases fuel <;> rfl
  | cons c cs ih =>
    obtain ⟨lead, more, hbytes, hdecode⟩ := decodeChar_encodeChar c
    rw [List.length_cons] at hfuel
    obtain ⟨fuel, rfl⟩ : ∃ n, fuel = n + 1 := ⟨fuel - 1, by omega⟩
    have hall : encode (c :: cs) = lead :: (more ++ encode cs) := by
      rw [encode, List.flatMap_cons, hbytes]
      rfl
    rw [hall, decodeFrom, hdecode]
    simp only [bind, Except.bind, List.drop_left, ih _ (Nat.le_of_succ_le_succ hfuel)]
    rfl

theorem length_le_encode (cs : List Char) : cs.length ≤ (encode cs).length := by
  induction cs with
  | nil => simp
  | cons c cs ih =>
    obtain ⟨lead, more, hbytes, -⟩ := decodeChar_encodeChar c
    rw [encode, List.flatMap_cons, hbytes, List.length_append, List.length_cons, List.length_cons]
    exact Nat.le_trans (Nat.succ_le_succ ih) (by rw [encode]; omega)

/-- Text is read as it was written. -/
theorem decode_encode (cs : List Char) : decode (encode cs) = .ok cs :=
  decodeFrom_encode cs 0 (length_le_encode cs)

/-! ### Text after other bytes -/

theorem isContinuation_of_continues {lead b : UInt8} (hb : continues lead b = true) :
    isContinuation b = true := by
  rw [continues_iff] at hb
  rw [isContinuation_iff]
  grind

/-- What is not part of a character does not start with a byte that could be. -/
def StartsAfresh (tail : List UInt8) : Prop :=
  ∀ b ∈ tail.head?, isContinuation b = false

theorem startsAfresh_encode (cs : List Char) : StartsAfresh (encode cs) := by
  cases cs with
  | nil => simp [StartsAfresh, encode]
  | cons c cs =>
    obtain ⟨lead, more, hbytes, hdecode⟩ := decodeChar_encodeChar c
    intro b hb
    obtain rfl : lead = b := by simpa [encode, hbytes] using hb
    -- A byte that continues a character has no width, and this one is the first of a character.
    rw [Bool.eq_false_iff, ne_eq, isContinuation_iff]
    rintro ⟨hlow, hhigh⟩
    have hnone : width? lead = none := by
      rw [width?_eq, if_neg (by omega), if_pos (by omega)]
    have hchar := hdecode 0 []
    rw [decodeChar, hnone] at hchar
    cases hchar

theorem takeWhile_append_of_startsAfresh {tail : List UInt8} (htail : StartsAfresh tail)
    (more : List UInt8) (count : Nat) : ((more ++ tail).take count).takeWhile isContinuation =
      (more.take count).takeWhile isContinuation := by
  induction more generalizing count with
  | nil =>
    cases tail with
    | nil => rfl
    | cons b tail =>
      have hb : isContinuation b = false := htail b rfl
      cases count <;> simp [hb]
  | cons b more ih =>
    cases count with
    | zero => rfl
    | succ count => simp only [List.cons_append, List.take_succ_cons, List.takeWhile_cons, ih]

/-- What starts afresh continues no character. -/
theorem continued_append {tail : List UInt8} (htail : StartsAfresh tail) (lead : UInt8) (count : Nat)
    (more : List UInt8) : continued lead count (more ++ tail) = continued lead count more := by
  cases count with
  | zero => simp [continued]
  | succ count =>
    cases more with
    | nil =>
      cases tail with
      | nil => rfl
      | cons b tail =>
        have hb : continues lead b = false := by
          rw [Bool.eq_false_iff]
          exact fun hc => by simpa [htail b rfl] using isContinuation_of_continues hc
        simp [continued, hb]
    | cons b more =>
      simp only [List.cons_append, continued, takeWhile_append_of_startsAfresh htail]

theorem continued_le (lead : UInt8) (count : Nat) (more : List UInt8) :
    continued lead count more ≤ more.length := by
  unfold continued
  split
  · next count b rest =>
    split
    · have hle : ((rest.take count).takeWhile isContinuation).length ≤ rest.length :=
        ((List.takeWhile_sublist _).trans (List.take_sublist _ _)).length_le
      rw [List.length_cons]
      omega
    · exact Nat.zero_le _
  · exact Nat.zero_le _

theorem decodeChar_append {tail : List UInt8} (htail : StartsAfresh tail) (offset : Nat) (lead : UInt8)
    (more : List UInt8) : Matched (fun r r' => r' = r ∧ r.2 ≤ more.length) (decodeChar offset lead more)
      (decodeChar offset lead (more ++ tail)) := by
  unfold decodeChar
  cases width? lead with
  | none => exact .error _ _
  | some width =>
    simp only [continued_append htail]
    have hle := continued_le lead (width - 1) more
    split
    · rw [List.take_append_of_le_length hle]
      exact .ok ⟨rfl, hle⟩
    · split <;> split <;> exact .error _ _

theorem decodeFrom_append (cs : List Char) {fuel fuel' : Nat} {bytes : List UInt8} (offset : Nat)
    (hfuel : bytes.length ≤ fuel) (hfuel' : bytes.length + cs.length ≤ fuel') :
    Matched (fun xs ys => ys = xs ++ cs) (decodeFrom fuel offset bytes)
      (decodeFrom fuel' offset (bytes ++ encode cs)) := by
  induction fuel generalizing fuel' bytes offset with
  | zero =>
    obtain rfl := List.eq_nil_of_length_eq_zero (Nat.le_zero.1 hfuel)
    rw [List.nil_append, decodeFrom_encode cs offset (by simpa using hfuel')]
    exact .ok rfl
  | succ fuel ih =>
    cases bytes with
    | nil =>
      rw [List.nil_append, decodeFrom_encode cs offset (by simpa using hfuel')]
      exact .ok rfl
    | cons lead more =>
      rw [List.length_cons] at hfuel hfuel'
      obtain ⟨fuel', rfl⟩ : ∃ n, fuel' = n + 1 := ⟨fuel' - 1, by omega⟩
      rw [List.cons_append, decodeFrom, decodeFrom]
      refine (decodeChar_append (startsAfresh_encode cs) offset lead more).bind ?_
      rintro ⟨c, found⟩ _ - ⟨rfl, hle⟩
      have hlength : (more.drop found).length = more.length - found := List.length_drop
      simp only [List.drop_append_of_le_length hle]
      refine (ih _ (by omega) (by omega)).bind fun xs ys _ hys => ?_
      exact .ok (by rw [hys]; rfl)

/-- A text after other bytes, which may be no text themselves, is read as it was written and changes
nothing in what comes before it. -/
theorem decode_append (bytes : List UInt8) (cs : List Char) :
    Matched (fun xs ys => ys = xs ++ cs) (decode bytes) (decode (bytes ++ encode cs)) := by
  refine decodeFrom_append cs 0 (Nat.le_refl _) ?_
  rw [List.length_append]
  exact Nat.add_le_add_left (length_le_encode cs) _

end Utf8

/-! ## Line ends -/

theorem unifyLineEnds_of_not_mem (hcs : '\r' ∉ cs) : unifyLineEnds cs = cs := by
  fun_induction unifyLineEnds cs with
  | case1 => rfl
  | case2 rest ih => simp at hcs
  | case3 rest _ ih => simp at hcs
  | case4 c rest _ _ ih => rw [ih fun h => hcs (List.mem_cons_of_mem _ h)]

theorem unifyLineEnds_cons {c : Char} (hc : c ≠ '\r') (cs : List Char) :
    unifyLineEnds (c :: cs) = c :: unifyLineEnds cs := by
  rw [unifyLineEnds]
  · rintro _ rfl
    exact absurd rfl hc
  · exact hc

/-- A text without carriage returns changes nothing in what follows it. -/
theorem unifyLineEnds_append (hcs : '\r' ∉ cs) (more : List Char) :
    unifyLineEnds (cs ++ more) = cs ++ unifyLineEnds more := by
  induction cs with
  | nil => rfl
  | cons c cs ih =>
    rw [List.mem_cons, not_or] at hcs
    rw [List.cons_append, unifyLineEnds_cons (Ne.symm hcs.1), ih hcs.2, List.cons_append]

/-! ## Names in order -/

/-- The order of sorted names is that of their characters. -/
theorem not_lt_eq_true {a b : String} : (!decide (b < a)) = true ↔ a ≤ b := by
  rw [Bool.not_eq_true', decide_eq_false_iff_not, String.not_lt]

/-- Different names that are sorted increase. -/
theorem pairwise_mergeSort {names : List String} (hn : names.Nodup) :
    (names.mergeSort fun a b => !(b < a)).Pairwise (· < ·) := by
  have hle : (names.mergeSort fun a b => !(b < a)).Pairwise (· ≤ ·) := by
    have hs : (names.mergeSort fun a b => !(b < a)).Pairwise fun a b => !(decide (b < a)) := by
      refine List.pairwise_mergeSort (fun a b c hab hbc => ?_) (fun a b => ?_) _
      · exact not_lt_eq_true.2 (String.le_trans (not_lt_eq_true.1 hab) (not_lt_eq_true.1 hbc))
      · rw [Bool.or_eq_true]
        exact (String.le_total a b).imp not_lt_eq_true.2 not_lt_eq_true.2
    exact hs.imp not_lt_eq_true.1
  have hne : (names.mergeSort fun a b => !(b < a)).Nodup := (List.mergeSort_perm _ _).nodup_iff.2 hn
  refine hle.imp₂ (fun a b hab hne => ?_) hne
  exact String.not_le.1 fun hba => hne (String.le_antisymm hab hba)

end Text

/-- A file of text holds the text, its line ends made line feeds. -/
theorem Host.textOf_encode (cs : List Char) :
    textOf (Text.Utf8.encode cs) = .ok (Text.unifyLineEnds cs) := by
  rw [textOf, Text.Utf8.decode_encode]

theorem Host.readText_of_encode {h : Host} {p : Path} {cs : List Char}
    (hread : h.read p = .ok (Text.Utf8.encode cs)) : h.readText p = .ok (Text.unifyLineEnds cs) := by
  rw [readText, hread]
  exact textOf_encode cs

end Keyring
