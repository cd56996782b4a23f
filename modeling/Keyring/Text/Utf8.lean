import Keyring.Text.Quoted
/-!
# UTF-8

`encode` writes characters in one to four bytes. `decode` reads them back and accepts nothing
else: an overlong form, a surrogate, a code point beyond the last one, a stray or missing
continuation byte each stop it. A `Utf8.Flaw` says where and why: the byte offset, the
number of bytes that form the start of a character before the fault shows, and the reason.
-/

namespace Keyring.Text.Utf8

/-- Why bytes are not UTF-8. -/
inductive Reason where
  /-- The byte starts no character. -/
  | start
  /-- A byte that has to continue a character does not. -/
  | continuation
  /-- The bytes end inside a character. -/
  | ending
  deriving DecidableEq, Repr

/-- The place of a fault: the bytes from `offset`, `length` of them, do not start a character. -/
structure Flaw where
  offset : Nat
  length : Nat
  reason : Reason
  /-- The first of those bytes. -/
  byte : UInt8
  deriving DecidableEq, Repr

/-- The bytes of a character. -/
def encodeChar (c : Char) : List UInt8 :=
  let n := c.toNat
  if n < 0x80 then [n.toUInt8]
  else if n < 0x800 then [(0xC0 + n / 0x40).toUInt8, (0x80 + n % 0x40).toUInt8]
  else if n < 0x10000 then
    [(0xE0 + n / 0x1000).toUInt8, (0x80 + n / 0x40 % 0x40).toUInt8, (0x80 + n % 0x40).toUInt8]
  else
    [(0xF0 + n / 0x40000).toUInt8, (0x80 + n / 0x1000 % 0x40).toUInt8,
      (0x80 + n / 0x40 % 0x40).toUInt8, (0x80 + n % 0x40).toUInt8]

/-- The bytes of a list of characters. -/
def encode (cs : List Char) : List UInt8 :=
  cs.flatMap encodeChar

/-- Whether `b` continues a character. -/
def isContinuation (b : UInt8) : Bool :=
  0x80 ≤ b && b < 0xC0

/-- Whether `b` can be the second byte of a character that starts with `lead`. The narrower ranges
shut out overlong forms, surrogates and code points that are too large. -/
def continues (lead b : UInt8) : Bool :=
  if lead == 0xE0 then 0xA0 ≤ b && b < 0xC0
  else if lead == 0xED then 0x80 ≤ b && b < 0xA0
  else if lead == 0xF0 then 0x90 ≤ b && b < 0xC0
  else if lead == 0xF4 then 0x80 ≤ b && b < 0x90
  else isContinuation b

/-- The number of bytes of a character that starts with `lead`, if one does. -/
def width? (lead : UInt8) : Option Nat :=
  if lead < 0x80 then some 1
  else if lead < 0xC2 then none
  else if lead < 0xE0 then some 2
  else if lead < 0xF0 then some 3
  else if lead < 0xF5 then some 4
  else none

/-- The number a lead byte and its continuation bytes stand for. -/
def codePoint (lead : UInt8) (width : Nat) (more : List UInt8) : Nat :=
  let high := if width = 1 then lead.toNat else lead.toNat % Nat.pow 2 (7 - width)
  more.foldl (fun n b => n * 0x40 + b.toNat % 0x40) high

/-- The number of bytes of `more` that continue a character with the given lead byte, up to
`count`. -/
def continued (lead : UInt8) (count : Nat) (more : List UInt8) : Nat :=
  match count, more with
  | count + 1, b :: rest =>
    if continues lead b then 1 + ((rest.take count).takeWhile isContinuation).length else 0
  | _, _ => 0

/-- Reads the character that starts with `lead` at `offset`, and the number of bytes of `more` that
belong to it. -/
def decodeChar (offset : Nat) (lead : UInt8) (more : List UInt8) : Except Flaw (Char × Nat) :=
  match width? lead with
  | none => .error ⟨offset, 1, .start, lead⟩
  | some width =>
    let found := continued lead (width - 1) more
    if found + 1 = width then .ok (Char.ofNat (codePoint lead width (more.take found)), found)
    else if found = more.length then .error ⟨offset, found + 1, .ending, lead⟩
    else .error ⟨offset, found + 1, .continuation, lead⟩

/-- Reads characters until the bytes are used up; each of them uses one of `fuel`. -/
def decodeFrom (fuel : Nat) (offset : Nat) (bytes : List UInt8) : Except Flaw (List Char) :=
  match fuel, bytes with
  | fuel + 1, lead :: more => do
    let (c, found) ← decodeChar offset lead more
    let cs ← decodeFrom fuel (offset + 1 + found) (more.drop found)
    pure (c :: cs)
  | _, _ => .ok []

/-- The characters the bytes stand for. -/
def decode (bytes : List UInt8) : Except Flaw (List Char) :=
  decodeFrom bytes.length 0 bytes

/-- The words for a reason. -/
def Reason.text : Reason → String
  | .start => "invalid start byte"
  | .continuation => "invalid continuation byte"
  | .ending => "unexpected end of data"

/-- The words for a fault. -/
def Flaw.message (f : Flaw) : String :=
  let place :=
    if f.length = 1 then
      "byte 0x" ++ String.ofList (hexDigits 2 f.byte.toNat) ++ " in position " ++ toString f.offset
    else
      "bytes in position " ++ toString f.offset ++ "-" ++ toString (f.offset + f.length - 1)
  "'utf-8' codec can't decode " ++ place ++ ": " ++ f.reason.text

end Keyring.Text.Utf8
