import Keyring.Datum
import Keyring.Failure.Basic
import Keyring.Hex
import Keyring.Host
import Keyring.Json.Basic
/-!
# Metadata fields

A metadata mapping is known by what its text keys hold. This module reads its fields: `require`
finds one that must be there, `decodeHex` reads a key of a given length, and `resolve` a path as
seen from the directory of the metadata file.
-/

namespace Keyring

/-- A mapping from text keys to values. -/
structure Metadata where
  get? : String → Option Datum

namespace Metadata

/-- The mapping with the given members. -/
def ofMembers (members : List (String × Json.Value)) : Metadata where
  get? := fun key => (members.lookup key).map (·.toDatum)

/-- A failure of the metadata. -/
def failure (text : String) : Failure :=
  .ofText .metadata text

/-- The value of a key that must be there; null and the empty text do not count. -/
def require (m : Metadata) (key : String) : Except Failure Datum :=
  match (m.get? key).filter (!·.isMissing) with
  | some v => .ok v
  | none => .error (failure ("Missing required metadata field '" ++ key ++ "'"))

/-- Drops a leading `0x` or `0X`. -/
def dropHexMark : List Char → List Char
  | '0' :: x :: rest => if x = 'x' ∨ x = 'X' then rest else '0' :: x :: rest
  | cs => cs

/-- The failure to read hex digits, which `position` stops. -/
def hexFailure (name : String) (position : Nat) : Failure :=
  (Failure.ofText .value ("non-hexadecimal number found in fromhex() arg at position " ++
    toString position)).wrap .metadata ("'" ++ name ++ "' is not valid hex")

/-- Reads exactly `length` bytes from a text in hex, with or without a mark in front and white
space around. -/
def decodeHex (name : String) (length : Int) : Datum → Except Failure (List UInt8)
  | .str s =>
    match Hex.decode (dropHexMark (Text.strip s.toList)) with
    | .error position => .error (hexFailure name position)
    | .ok bytes =>
      if (bytes.length : Int) = length then .ok bytes
      else
        .error (failure ("'" ++ name ++ "' must be " ++ toString length ++ " bytes, got " ++
          toString bytes.length))
  | _ => .error (failure ("'" ++ name ++ "' must be a hex string"))

/-- The failure to write a whole number of too many digits. -/
def tooLongFailure : Failure :=
  .ofText .value Decimal.tooLongToWrite

/-- The text of a value. -/
def textOf (v : Datum) : Except Failure String :=
  match v.text? with
  | some s => .ok s
  | none => .error tooLongFailure

/-- The path that a value stands for: with the home directory for a tilde, and relative to
`baseDir`. -/
def resolve (h : Host) (baseDir : Path) (v : Datum) : Except Failure Path := do
  let p ← h.expandHome (.ofString (← textOf v))
  pure (baseDir.join p)

end Metadata

end Keyring
