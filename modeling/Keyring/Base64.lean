/-!
# Base64, read leniently

Characters outside the alphabet are skipped. A padding sign counts once two characters of a group
have been read; the signs that fill a group up end the data, and what follows is not looked at.
Data that end inside a group are refused.
-/

namespace Keyring.Base64

/-- Why data are refused. -/
inductive Flaw where
  /-- One character more than full groups; `characters` of them in all. -/
  | single (characters : Nat)
  /-- A group lacks its padding. -/
  | padding
  deriving DecidableEq, Repr

/-- The six bits a character stands for. -/
def sextet? (c : Char) : Option Nat :=
  if 'A' ≤ c && c ≤ 'Z' then some (c.toNat - 'A'.toNat)
  else if 'a' ≤ c && c ≤ 'z' then some (c.toNat - 'a'.toNat + 26)
  else if '0' ≤ c && c ≤ '9' then some (c.toNat - '0'.toNat + 52)
  else if c = '+' then some 62
  else if c = '/' then some 63
  else none

/-- A group that is being read. -/
structure Group where
  /-- Characters of the group read so far, below four. -/
  filled : Nat
  /-- The bits that do not fill a byte yet. -/
  bits : Nat
  /-- Padding signs since the last character. -/
  pads : Nat

/-- Adds six bits to a group, which may complete a byte. -/
def Group.push (g : Group) (v : Nat) : Group × Option UInt8 :=
  match g.filled with
  | 0 => (⟨1, v, 0⟩, none)
  | 1 => (⟨2, v % 16, 0⟩, some (g.bits * 4 + v / 16).toUInt8)
  | 2 => (⟨3, v % 4, 0⟩, some (g.bits * 16 + v / 4).toUInt8)
  | _ => (⟨0, 0, 0⟩, some (g.bits * 64 + v).toUInt8)

/-- Reads on inside the group `g`; `out` holds the bytes so far, the last one first. -/
def decodeFrom (g : Group) (out : List UInt8) : List Char → Except Flaw (List UInt8)
  | [] =>
    match g.filled with
    | 0 => .ok out.reverse
    | 1 => .error (.single (out.length / 3 * 4 + 1))
    | _ => .error .padding
  | c :: cs =>
    if c = '=' then
      if 2 ≤ g.filled && 4 ≤ g.filled + g.pads + 1 then .ok out.reverse
      else decodeFrom { g with pads := if 2 ≤ g.filled then g.pads + 1 else g.pads } out cs
    else
      match sextet? c with
      | none => decodeFrom g out cs
      | some v =>
        let (g, byte?) := g.push v
        decodeFrom g (byte?.toList ++ out) cs

/-- The bytes that the text stands for. -/
def decode (cs : List Char) : Except Flaw (List UInt8) :=
  decodeFrom ⟨0, 0, 0⟩ [] cs

end Keyring.Base64
