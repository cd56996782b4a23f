import Keyring.Json.Basic
/-!
# Writing JSON

A value is written on one line, or with every item and member on a line of its own, indented by
the depth. Strings are written in printable seven-bit characters; others are escaped, those beyond
the first 65536 as a pair of surrogates.
-/

namespace Keyring.Json

open Decimal Text

/-- How a value is spread over lines. -/
inductive Style where
  /-- On one line. -/
  | line
  /-- Indented by this many spaces a level. -/
  | indented (width : Nat)
  deriving DecidableEq, Repr

namespace Style

/-- What goes between an opening bracket and the first item at the given depth, and between the
last item and the closing bracket one level further out. -/
def newline (s : Style) (depth : Nat) : List Char :=
  match s with
  | line => []
  | indented width => '\n' :: List.replicate (width * depth) ' '

/-- What goes between two items. -/
def separator (s : Style) (depth : Nat) : List Char :=
  match s with
  | line => [',', ' ']
  | indented _ => ',' :: s.newline depth

end Style

/-- An escaped code unit. -/
def unitEscape (n : Nat) : List Char :=
  '\\' :: 'u' :: hexDigits 4 n

/-- What stands for `c` in a string. -/
def escapeChar (c : Char) : List Char :=
  if c = '"' then ['\\', '"']
  else if c = '\\' then ['\\', '\\']
  else if c = '\n' then ['\\', 'n']
  else if c = '\r' then ['\\', 'r']
  else if c = '\t' then ['\\', 't']
  else if c.toNat = 0x0C then ['\\', 'f']
  else if c.toNat = 0x08 then ['\\', 'b']
  else if 0x20 ≤ c.toNat && c.toNat ≤ 0x7E then [c]
  else if c.toNat < 0x10000 then unitEscape c.toNat
  else
    let n := c.toNat - 0x10000
    unitEscape (0xD800 + n / 0x400) ++ unitEscape (0xDC00 + n % 0x400)

/-- A string between quotes. -/
def writeString (s : String) : List Char :=
  '"' :: (s.toList.flatMap escapeChar ++ ['"'])

/-- A whole number. -/
def writeInt (n : Int) : List Char :=
  (if n < 0 then ['-'] else []) ++ digitsOf n.natAbs

/-- Items that have been written, between brackets. -/
def enclose (style : Style) (depth : Nat) (opening closing : Char) (items : List (List Char)) :
    List Char :=
  if items.isEmpty then [opening, closing]
  else
    opening :: (style.newline (depth + 1) ++ List.intercalate (style.separator (depth + 1)) items ++
      style.newline depth ++ [closing])

mutual

/-- Writes a value at the given depth. -/
def writeValue (style : Style) (depth : Nat) : Value → List Char
  | .null => "null".toList
  | .bool b => (if b then "true" else "false").toList
  | .int n => writeInt n
  | .float x => (jsonLayout.write x).toList
  | .str s => writeString s
  | .list items => enclose style depth '[' ']' (writeItems style (depth + 1) items)
  | .object members => enclose style depth '\x7b' '\x7d' (writeMembers style (depth + 1) members)

/-- Writes items, each by itself. -/
def writeItems (style : Style) (depth : Nat) : List Value → List (List Char)
  | [] => []
  | v :: vs => writeValue style depth v :: writeItems style depth vs

/-- Writes members, each by itself. -/
def writeMembers (style : Style) (depth : Nat) : List (String × Value) → List (List Char)
  | [] => []
  | (k, v) :: rest =>
    (writeString k ++ ':' :: ' ' :: writeValue style depth v) :: writeMembers style depth rest

end

/-- The text of a value. -/
def write (style : Style) (v : Value) : String :=
  String.ofList (writeValue style 0 v)

end Keyring.Json
