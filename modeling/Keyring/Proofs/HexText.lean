import Keyring.Proofs.RawKey
import Keyring.Proofs.Trim
/-!
# Keys as texts in hex

A text is read as bytes if, without the white space at its ends and then without one mark, it is the
pairs of digits of the bytes (`IsHexText`). White space may stand before a pair, but only the seven-bit
one, and never inside a pair. `decodeHex_reads` says that these texts are the ones that are read, and
what is said of the others.
-/

namespace Keyring

/-! ## White space -/

namespace Text

theorem isBlank_of_isSpace {c : Char} (hc : isSpace c = true) : isBlank c = true := by
  rw [isBlank, isWhite_of_isSpace hc, Bool.true_or]

theorem toNat_lt_of_isSpace {c : Char} (hc : isSpace c = true) : c.toNat < 0x80 := by
  simp only [isSpace, Bool.or_eq_true, beq_iff_eq, Bool.and_eq_true, decide_eq_true_eq] at hc
  rcases hc with rfl | hc
  · decide
  · omega

end Text

/-! ## Pairs of digits -/

namespace Hex

variable {cs text body : List Char} {bs : List UInt8}

/-- `text` is `body` without its mark, if it starts with one. -/
inductive Unmarked : (body text : List Char) → Prop
  | marked {x : Char} {text : List Char} (hx : x = 'x' ∨ x = 'X') : Unmarked ('0' :: x :: text) text
  | bare {text : List Char} (h : ∀ x rest, text = '0' :: x :: rest → ¬ (x = 'x' ∨ x = 'X')) :
    Unmarked text text

theorem dropHexMark_eq_iff : Metadata.dropHexMark body = text ↔ Unmarked body text := by
  unfold Metadata.dropHexMark
  constructor
  · rintro rfl
    split
    · next x rest =>
      split
      · next hx => exact .marked hx
      · next hx =>
        refine .bare ?_
        rintro _ _ ⟨⟩
        exact hx
    · next hbare => exact .bare fun x rest h _ => hbare x rest h
  · rintro (hx | hbare)
    · exact if_pos hx
    · split
      · next x rest => rw [if_neg (hbare x rest rfl)]
      · rfl

/-- The text is the pairs of digits of the bytes, with white space before the pairs. -/
inductive Pairs : List Char → List UInt8 → Prop
  | nil : Pairs [] []
  | cons {spaces pair rest : List Char} {b : UInt8} {bs : List UInt8}
      (hspaces : ∀ c ∈ spaces, Text.isSpace c = true) (hpair : Spells [b] pair)
      (hrest : Pairs rest bs) : Pairs (spaces ++ pair ++ rest) (b :: bs)

theorem Pairs.pair {pair rest : List Char} {b : UInt8} (hpair : Spells [b] pair)
    (hrest : Pairs rest bs) : Pairs (pair ++ rest) (b :: bs) := by
  simpa using Pairs.cons (List.forall_mem_nil _) hpair hrest

theorem Pairs.space {c : Char} {b : UInt8} (hc : Text.isSpace c = true) (h : Pairs text (b :: bs)) :
    Pairs (c :: text) (b :: bs) := by
  cases h with
  | cons hspaces hpair hrest =>
    exact Pairs.cons (List.forall_mem_cons.2 ⟨hc, hspaces⟩) hpair hrest

/-- Pairs and the white space between them are seven-bit characters. -/
theorem Pairs.lt (h : Pairs text bs) : ∀ c ∈ text, c.toNat < 0x80 := by
  induction h with
  | nil => simp
  | cons hspaces hpair hrest ih =>
    intro c hc
    rcases List.mem_append.1 hc with hc | hc
    · rcases List.mem_append.1 hc with hc | hc
      · exact Text.toNat_lt_of_isSpace (hspaces c hc)
      · exact Yaml.toNat_lt_of_isWordChar (Yaml.isWordChar_of_isHexDigit (hpair.isHexDigit c hc))
    · exact ih c hc

theorem decodeFrom_spaces {spaces : List Char} (hspaces : ∀ c ∈ spaces, Text.isSpace c = true)
    (position : Nat) (cs : List Char) :
    decodeFrom position (spaces ++ cs) = decodeFrom (position + spaces.length) cs := by
  induction spaces generalizing position with
  | nil => rfl
  | cons c spaces ih =>
    obtain ⟨hc, hspaces⟩ := List.forall_mem_cons.1 hspaces
    rw [List.cons_append]
    conv_lhs => unfold decodeFrom
    rw [if_pos hc, ih hspaces, List.length_cons, Nat.add_right_comm, Nat.add_assoc]

theorem Pairs.decodeFrom (h : Pairs text bs) {tail : List Char}
    (htail : ∀ c ∈ tail, Text.isSpace c = true) (position : Nat) :
    decodeFrom position (text ++ tail) = .ok bs := by
  induction h generalizing position with
  | nil =>
    have := decodeFrom_spaces htail position []
    rwa [List.append_nil] at this
  | cons hspaces hpair hrest ih =>
    rw [List.append_assoc, List.append_assoc, decodeFrom_spaces hspaces, decodeFrom_pair hpair, ih]
    rfl

/-- White space after the last pair is passed over as well. -/
theorem decodeFrom_eq_ok_iff {position : Nat} : decodeFrom position cs = .ok bs ↔
    ∃ text tail, cs = text ++ tail ∧ Pairs text bs ∧ ∀ c ∈ tail, Text.isSpace c = true := by
  constructor
  · intro h
    -- White space goes to the pair that it stands before, or else to the tail.
    fun_induction Hex.decodeFrom position cs generalizing bs with
    | case1 =>
      cases h
      exact ⟨[], [], rfl, .nil, by simp⟩
    | case2 position c rest hc ih =>
      obtain ⟨text, tail, rfl, hpairs, htail⟩ := ih h
      cases bs with
      | nil =>
        cases hpairs
        exact ⟨[], c :: tail, rfl, .nil, List.forall_mem_cons.2 ⟨hc, htail⟩⟩
      | cons b bs => exact ⟨c :: text, tail, rfl, hpairs.space hc, htail⟩
    | case3 | case4 | case5 => cases h
    | case6 position c _ high d rest hhigh low hlow ih =>
      cases hrest : decodeFrom (position + 2) rest with
      | error =>
        rw [hrest] at h
        cases h
      | ok bs' =>
        rw [hrest] at h
        cases h
        obtain ⟨text, tail, rfl, hpairs, htail⟩ := ih hrest
        have hpair := spells_singleton_iff.2 ⟨c, d, high, low, rfl, hhigh, hlow, rfl⟩
        exact ⟨[c, d] ++ text, tail, rfl, .pair hpair hpairs, htail⟩
  · rintro ⟨text, tail, rfl, hpairs, htail⟩
    exact hpairs.decodeFrom htail position

/-- A text that ends in no white space is read if it is pairs. -/
theorem decode_eq_ok_iff (hlast : ∀ c ∈ text.getLast?, Text.isSpace c = false) :
    decode text = .ok bs ↔ Pairs text bs := by
  unfold decode
  split
  · next position hposition =>
    obtain ⟨hlt, hc, -⟩ := List.findIdx?_eq_some_iff_getElem.1 hposition
    refine iff_of_false (fun h => nomatch h) fun h => ?_
    have := h.lt _ (List.getElem_mem hlt)
    simp at hc
    omega
  · rw [decodeFrom_eq_ok_iff]
    constructor
    · rintro ⟨text, tail, rfl, hpairs, htail⟩
      rcases List.eq_nil_or_concat' tail with rfl | ⟨init, c, rfl⟩
      · rwa [List.append_nil]
      · have hspace := htail c (by simp)
        rw [hlast c (by simp)] at hspace
        cases hspace
    · exact fun h => ⟨text, [], (List.append_nil text).symm, h, by simp⟩

/-! ## Texts in hex -/

variable {s : String} {ds : List UInt8}

/-- The text is the bytes in hex: the pairs of their digits, with a mark in front or without, and with
white space around. -/
def IsHexText (s : String) (bs : List UInt8) : Prop :=
  ∃ body text, Text.IsTrimmed Text.isBlank s.toList body ∧ Unmarked body text ∧ Pairs text bs

theorem Unmarked.getLast? {text : List Char} {c : Char} (h : Unmarked body text)
    (hc : c ∈ text.getLast?) : c ∈ body.getLast? := by
  cases h with
  | bare => exact hc
  | marked =>
    obtain ⟨init, rfl⟩ := List.getLast?_eq_some_iff.1 hc
    exact List.getLast?_concat (l := _ :: _ :: init)

theorem isHexText_iff :
    IsHexText s bs ↔ decode (Metadata.dropHexMark (Text.strip s.toList)) = .ok bs := by
  have hlast : ∀ c ∈ (Metadata.dropHexMark (Text.strip s.toList)).getLast?, Text.isSpace c = false := by
    intro c hc
    have hblank := (Text.trim_eq_iff.1 rfl).last c ((dropHexMark_eq_iff.1 rfl).getLast? hc)
    exact Bool.eq_false_iff.2 fun hspace => by simp [Text.isBlank_of_isSpace hspace] at hblank
  rw [decode_eq_ok_iff hlast]
  constructor
  · rintro ⟨body, text, htrim, hmark, hpairs⟩
    rwa [Text.strip, Text.trim_eq_iff.2 htrim, dropHexMark_eq_iff.2 hmark]
  · exact fun h => ⟨_, _, Text.trim_eq_iff.1 rfl, dropHexMark_eq_iff.1 rfl, h⟩

/-- What identifies a key tells it from all others. -/
theorem identifierOf_inj : Handler.identifierOf bs = Handler.identifierOf ds ↔ bs = ds := by
  refine ⟨fun h => ?_, congrArg _⟩
  have hencode : encode bs = encode ds := by
    simpa [Handler.identifierOf, String.ext_iff, String.toList_append] using h
  have hdecode := decode_encode bs
  rw [hencode, decode_encode] at hdecode
  exact (Except.ok.inj hdecode).symm

/-- A spelling is the bytes in hex. -/
theorem IsSpelling.isHexText (h : IsSpelling bs s.toList) : IsHexText s bs := by
  rw [isHexText_iff, h.strip, decode_spells h.dropHexMark]

theorem isHexText_identifierOf (bs : List UInt8) : IsHexText (Handler.identifierOf bs) bs := by
  refine IsSpelling.isHexText ⟨['0', 'x'], by decide, (encode bs).toList, spells_encode bs, ?_⟩
  rw [Handler.identifierOf, String.toList_append]
  rfl

end Hex

/-! ## What is read -/

namespace Metadata

open Hex Outcome

variable {name s : String} {n : Int} {v : Datum} {bs : List UInt8}

theorem decodeHex_of_isHexText (h : IsHexText s bs) : decodeHex name n (.str s) =
    if (bs.length : Int) = n then .ok bs
    else .error (.ofText .metadata
      ("'" ++ name ++ "' must be " ++ toString n ++ " bytes, got " ++ toString bs.length)) := by
  rw [decodeHex, isHexText_iff.1 h]
  rfl

theorem decodeHex_of_not_isHexText (h : ∀ bs, ¬ IsHexText s bs) : ∃ cause : Failure,
    cause.kind = .value ∧ decodeHex name n (.str s) =
      .error (cause.wrap .metadata ("'" ++ name ++ "' is not valid hex")) := by
  rw [decodeHex]
  split
  · exact ⟨_, rfl, rfl⟩
  · next bs hbs => exact absurd (isHexText_iff.2 hbs) (h bs)

theorem decodeHex_of_not_text (h : ∀ s, v ≠ .str s) : decodeHex name n v =
    .error (.ofText .metadata ("'" ++ name ++ "' must be a hex string")) := by
  unfold decodeHex
  split
  · next s => exact absurd rfl (h s)
  · rfl

theorem decodeHex_eq_ok_iff :
    decodeHex name n v = .ok bs ↔ ∃ s, v = .str s ∧ IsHexText s bs ∧ (bs.length : Int) = n := by
  constructor
  · intro h
    unfold decodeHex at h
    split at h
    · next s =>
      split at h
      · cases h
      · next hdecode =>
        split at h
        · next hlength =>
          cases h
          exact ⟨s, rfl, isHexText_iff.2 hdecode, hlength⟩
        · cases h
    · cases h
  · rintro ⟨s, rfl, hs, hlength⟩
    rw [decodeHex_of_isHexText hs, if_pos hlength]

/-- Exactly the texts in hex are read, and as their bytes; a text of another length is told from a text
that is not in hex. What identifies a key is read as the key, and tells keys apart. -/
theorem decodeHex_reads (name : String) (n : Int) :
    (∀ v bs, decodeHex name n v = .ok bs ↔ ∃ s, v = .str s ∧ IsHexText s bs ∧ (bs.length : Int) = n) ∧
    (∀ s bs, IsHexText s bs → (bs.length : Int) ≠ n → decodeHex name n (.str s) =
      .error (.ofText .metadata
        ("'" ++ name ++ "' must be " ++ toString n ++ " bytes, got " ++ toString bs.length))) ∧
    (∀ s, (∀ bs, ¬ IsHexText s bs) → ∃ cause : Failure, cause.kind = .value ∧
      decodeHex name n (.str s) = .error (cause.wrap .metadata ("'" ++ name ++ "' is not valid hex"))) ∧
    (∀ v, (∀ s, v ≠ .str s) → decodeHex name n v = .error (.ofText .metadata
      ("'" ++ name ++ "' must be a hex string"))) ∧
    (∀ bs : List UInt8, (bs.length : Int) = n → decodeHex name n (.str ("0x" ++ encode bs)) = .ok bs) ∧
    ∀ v w bs cs, decodeHex name n v = .ok bs → decodeHex name n w = .ok cs →
      ("0x" ++ encode bs = "0x" ++ encode cs ↔ bs = cs) := by
  refine ⟨fun v bs => decodeHex_eq_ok_iff, fun s bs hs hlength => ?_,
    fun s => decodeHex_of_not_isHexText, fun v => decodeHex_of_not_text, fun bs hlength => ?_,
    fun v w bs cs _ _ => identifierOf_inj⟩
  · rw [decodeHex_of_isHexText hs, if_neg hlength]
  · exact decodeHex_eq_ok_iff.2 ⟨_, rfl, isHexText_identifierOf bs, hlength⟩

theorem decodeHex_reads_publicKey :
    IsHexText "\u00a00XaB\t0c\n" [0xab, 0x0c] ∧ (∀ bs, ¬ IsHexText "0x0xab" bs) ∧
    decodeHex "publicKey" 2 (.str "\u00a00XaB\t0c\n") = .ok [0xab, 0x0c] ∧
    decodeHex "publicKey" 48 (.str "\u00a00XaB\t0c\n") =
      .error (.ofText .metadata "'publicKey' must be 48 bytes, got 2") ∧
    (∃ cause : Failure, cause.kind = .value ∧ decodeHex "publicKey" 2 (.str "0x0xab") =
      .error (cause.wrap .metadata "'publicKey' is not valid hex")) ∧
    decodeHex "publicKey" 2 (.int 0xab) =
      .error (.ofText .metadata "'publicKey' must be a hex string") ∧
    decodeHex "publicKey" 2 (.str "0xab0c") = .ok [0xab, 0x0c] ∧
    ("0x" ++ encode [0xab, 0x0c] = "0x" ++ encode [0xab, 0x0d] ↔
      ([0xab, 0x0c] : List UInt8) = [0xab, 0x0d]) := by
  obtain ⟨hread, -, hnot, htext, hidentifier, hinj⟩ := decodeHex_reads "publicKey" 2
  obtain ⟨-, hlength, -⟩ := decodeHex_reads "publicKey" 48
  have hs : IsHexText "\u00a00XaB\t0c\n" [0xab, 0x0c] :=
    isHexText_iff.2 (toOption_eq_some.1 (by decide +kernel))
  have hdoubled : ∀ bs, ¬ IsHexText "0x0xab" bs := by
    have hnone : (decode (dropHexMark (Text.strip "0x0xab".toList))).toOption = none := by
      decide +kernel
    intro bs h
    rw [isHexText_iff.1 h] at hnone
    cases hnone
  have hread' := (hread (.str "\u00a00XaB\t0c\n") [0xab, 0x0c]).2 ⟨_, rfl, hs, rfl⟩
  exact ⟨hs, hdoubled, hread', hlength _ _ hs (by decide), hnot _ hdoubled, htext _ (by simp),
    hidentifier [0xab, 0x0c] rfl, hinj _ _ _ _ hread' (hidentifier [0xab, 0x0d] rfl)⟩

end Metadata

end Keyring
