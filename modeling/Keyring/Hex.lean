import Keyring.Text.Blank
import Keyring.Text.Quoted
/-!
# Bytes as pairs of hex digits

`Hex.encode` writes two small digits a byte. `Hex.decode` reads pairs in either letter case, with
white space between pairs and never inside one; what it refuses it refuses at a position, that of
the first character outside the seven-bit ones if there is any, else of the first character that
is not the digit it has to be, the end of the text included. What `encode` writes `decode` reads
back.
-/

namespace Keyring.Hex

open Keyring.Text

/-- The value of a hex digit. -/
def digit? (c : Char) : Option Nat :=
  if '0' ≤ c && c ≤ '9' then some (c.toNat - '0'.toNat)
  else if 'a' ≤ c && c ≤ 'f' then some (c.toNat - 'a'.toNat + 10)
  else if 'A' ≤ c && c ≤ 'F' then some (c.toNat - 'A'.toNat + 10)
  else none

/-- Reads pairs from `position` on; the error is the position of the fault. -/
def decodeFrom : (position : Nat) → List Char → Except Nat (List UInt8)
  | _, [] => .ok []
  | position, c :: rest =>
    if isSpace c then decodeFrom (position + 1) rest
    else
      match digit? c, rest with
      | none, _ => .error position
      | some _, [] => .error (position + 1)
      | some high, d :: rest =>
        match digit? d with
        | none => .error (position + 1)
        | some low => (decodeFrom (position + 2) rest).map ((high * 16 + low).toUInt8 :: ·)

/-- The bytes that the pairs stand for. -/
def decode (cs : List Char) : Except Nat (List UInt8) :=
  match cs.findIdx? fun c => 0x80 ≤ c.toNat with
  | some position => .error position
  | none => decodeFrom 0 cs

/-- The two digits of a byte. -/
def encodeByte (b : UInt8) : List Char :=
  [hexDigit (b.toNat / 16), hexDigit (b.toNat % 16)]

/-- The digits of bytes. -/
def encode (bs : List UInt8) : String :=
  String.ofList (bs.flatMap encodeByte)

/-! ## What is written -/

/-- A digit or a small letter up to `f`. -/
def IsDigit (c : Char) : Prop :=
  '0' ≤ c ∧ c ≤ '9' ∨ 'a' ≤ c ∧ c ≤ 'f'

theorem isDigit_hexDigit {n : Nat} (h : n < 16) : IsDigit (hexDigit n) := by
  have all : ∀ m : Fin 16, '0' ≤ hexDigit m ∧ hexDigit m ≤ '9' ∨
      'a' ≤ hexDigit m ∧ hexDigit m ≤ 'f' := by decide
  exact all ⟨n, h⟩

theorem isDigit_of_mem_encodeByte {b : UInt8} {c : Char} (h : c ∈ encodeByte b) : IsDigit c := by
  simp only [encodeByte, List.mem_cons, List.not_mem_nil, or_false] at h
  rcases h with rfl | rfl
  · exact isDigit_hexDigit (by have := b.toNat_lt; omega)
  · exact isDigit_hexDigit (by omega)

theorem length_flatMap_encodeByte (bs : List UInt8) :
    (bs.flatMap encodeByte).length = 2 * bs.length := by
  induction bs with
  | nil => rfl
  | cons b bs ih => simp only [List.flatMap_cons, List.length_append, ih, encodeByte,
      List.length_cons, List.length_nil]; omega

/-! ## Reading what was written -/

theorem digit?_hexDigit {n : Nat} (h : n < 16) : digit? (hexDigit n) = some n := by
  have all : ∀ m : Fin 16, digit? (hexDigit m) = some m.val := by decide
  exact all ⟨n, h⟩

theorem isSpace_hexDigit {n : Nat} (h : n < 16) : isSpace (hexDigit n) = false := by
  have all : ∀ m : Fin 16, isSpace (hexDigit m) = false := by decide
  exact all ⟨n, h⟩

theorem hexDigit_lt {n : Nat} (h : n < 16) : (hexDigit n).toNat < 0x80 := by
  have all : ∀ m : Fin 16, (hexDigit m).toNat < 0x80 := by decide
  exact all ⟨n, h⟩

/-- The halves of a byte make it up. -/
theorem toUInt8_halves (b : UInt8) : (b.toNat / 16 * 16 + b.toNat % 16).toUInt8 = b := by
  rw [show b.toNat / 16 * 16 + b.toNat % 16 = b.toNat by omega]
  exact UInt8.ofNat_toNat

/-- Reading the two digits of a byte gives the byte. -/
theorem decodeFrom_encodeByte (position : Nat) (b : UInt8) (rest : List Char) :
    decodeFrom position (encodeByte b ++ rest) =
      (decodeFrom (position + 2) rest).map (b :: ·) := by
  have high : b.toNat / 16 < 16 := by have := b.toNat_lt; omega
  have low : b.toNat % 16 < 16 := by omega
  simp [encodeByte, decodeFrom, isSpace_hexDigit high, digit?_hexDigit high, digit?_hexDigit low,
    toUInt8_halves b]

theorem decodeFrom_flatMap_encodeByte (position : Nat) (bs : List UInt8) :
    decodeFrom position (bs.flatMap encodeByte) = .ok bs := by
  induction bs generalizing position with
  | nil => rfl
  | cons b bs ih => rw [List.flatMap_cons, decodeFrom_encodeByte, ih]; rfl

theorem lt_of_mem_encodeByte {b : UInt8} {c : Char} (h : c ∈ encodeByte b) : c.toNat < 0x80 := by
  simp only [encodeByte, List.mem_cons, List.not_mem_nil, or_false] at h
  rcases h with rfl | rfl
  · exact hexDigit_lt (by have := b.toNat_lt; omega)
  · exact hexDigit_lt (by omega)

/-- What has been written is read back. -/
theorem decode_encode (bs : List UInt8) : decode (encode bs).toList = .ok bs := by
  have plain : ((encode bs).toList.findIdx? fun c => 0x80 ≤ c.toNat) = none := by
    rw [List.findIdx?_eq_none_iff]
    intro c hc
    simp only [encode, String.toList_ofList, List.mem_flatMap] at hc
    obtain ⟨b, -, hc⟩ := hc
    have := lt_of_mem_encodeByte hc
    simpa using this
  rw [decode, plain, encode, String.toList_ofList]
  exact decodeFrom_flatMap_encodeByte 0 bs

end Keyring.Hex
