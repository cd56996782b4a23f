import Keyring.Text.LetterCase
/-!
# Small letters

`lower` turns a text into small letters, character by character, with two rules beyond the simple
mapping: a capital I with a dot becomes an i and a combining dot, and a capital sigma becomes the
final form exactly when a cased letter stands before it and none after it, case-ignorable
characters in between not counting.
-/

namespace Keyring.Text

/-- Whether `c` has a case. -/
def isCased (c : Char) : Bool :=
  if c.toNat < 0x80 then c.isAlpha else casedRanges.contains c.toNat

/-- Whether `c` does not count when a neighbouring letter is looked for. -/
def isCaseIgnorable (c : Char) : Bool :=
  if c.toNat < 0x80 then c.toNat == 0x27 || c == '.' || c == ':' || c == '^' || c.toNat == 0x60
  else caseIgnorableRanges.contains c.toNat

/-- The small form of a character, whatever stands around it. -/
def lowerChar (c : Char) : List Char :=
  if c.toNat < 0x80 then
    [if 'A' ≤ c && c ≤ 'Z' then Char.ofNat (c.toNat + 32) else c]
  else if c.toNat = 0x130 then ['i', Char.ofNat 0x307]
  else [((capitals.findSome? (·.lower? c.toNat)).map Char.ofNat).getD c]

/-- Whether the nearest character that counts is a cased letter. -/
def nearestIsCased (cs : List Char) : Bool :=
  (cs.dropWhile isCaseIgnorable).head?.any isCased

/-- The small form of `c` after the characters `before` (nearest first) and before `after`. -/
def lowerAt (before : List Char) (c : Char) (after : List Char) : List Char :=
  if c = 'Σ' then [if nearestIsCased before && !nearestIsCased after then 'ς' else 'σ']
  else lowerChar c

/-- The small form of the last characters of a text, of which `before` have been passed. -/
def lowerFrom : (before : List Char) → List Char → List Char
  | _, [] => []
  | before, c :: after => lowerAt before c after ++ lowerFrom (c :: before) after

/-- A text in small letters. -/
def lower (s : String) : String :=
  String.ofList (lowerFrom [] s.toList)

end Keyring.Text
