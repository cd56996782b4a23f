import Keyring.Text.Printable
/-!
# Text and bytes in quotes

The quoted form names a text in a message without ambiguity: single quotes unless the text holds a
single and no double quote, a backslash before the quote in use and before a backslash, short
escapes for tab, line feed and carriage return, and the code point in two, four or eight hex
digits for any other character that is not printable. Bytes are quoted in the same manner after
the letter `b`, all but the printable seven-bit ones in hex.
-/

namespace Keyring.Text

/-- The small hex digit of `n`, for `n` below sixteen. -/
def hexDigit (n : Nat) : Char :=
  Char.ofNat (if n < 10 then 0x30 + n else 0x57 + n)

/-- The `width` last hex digits of `n`. -/
def hexDigits : (width : Nat) → (n : Nat) → List Char
  | 0, _ => []
  | width + 1, n => hexDigits width (n / 16) ++ [hexDigit (n % 16)]

/-- A backslash, a letter and the code point in as few of two, four or eight digits as hold it. -/
def numericEscape (n : Nat) : List Char :=
  if n < 0x100 then '\\' :: 'x' :: hexDigits 2 n
  else if n < 0x10000 then '\\' :: 'u' :: hexDigits 4 n
  else '\\' :: 'U' :: hexDigits 8 n

/-- What stands for `c` between quotes `quote`. -/
def escapeIn (quote c : Char) : List Char :=
  if c = quote ∨ c = '\\' then ['\\', c]
  else if c = '\t' then ['\\', 't']
  else if c = '\n' then ['\\', 'n']
  else if c = '\r' then ['\\', 'r']
  else if isPrintable c then [c]
  else numericEscape c.toNat

/-- The quote for a text: single, unless the text holds single quotes and no double ones. -/
def quoteFor (cs : List Char) : Char :=
  if cs.contains '\x27' && !cs.contains '"' then '"' else '\x27'

/-- A list of characters between quotes. -/
def quotedList (cs : List Char) : List Char :=
  let q := quoteFor cs
  q :: (cs.flatMap (escapeIn q) ++ [q])

/-- A text between quotes. -/
def quoted (s : String) : String :=
  String.ofList (quotedList s.toList)

/-- A single character between quotes. -/
def quotedChar (c : Char) : String :=
  String.ofList (quotedList [c])

/-- What stands for the byte `b` between quotes `quote`. -/
def escapeByteIn (quote : Char) (b : UInt8) : List Char :=
  let c := Char.ofNat b.toNat
  if b < 0x7F then escapeIn quote c else numericEscape b.toNat

/-- Bytes between quotes. -/
def quotedBytes (bs : List UInt8) : String :=
  let q := quoteFor (bs.map fun b => Char.ofNat b.toNat)
  String.ofList ('b' :: q :: (bs.flatMap (escapeByteIn q) ++ [q]))

end Keyring.Text
