import Keyring.Hex
import Keyring.Json.Basic
/-!
# Reading JSON

`Json.read` reads one value with white space around it. Beyond the standard it takes `NaN`,
`Infinity` and `-Infinity`, and of members with one name the last counts. A `Json.Flaw` says what is
wrong and where; the first fault from the left is reported.
-/

namespace Keyring.Json

open Decimal

/-- What is wrong with a text. -/
inductive Flaw where
  /-- The words, and how many characters stand before the place. -/
  | at (words : String) (position : Nat)
  /-- A whole number of too many digits. -/
  | tooLong (digits : Nat)
  deriving DecidableEq, Repr

/-- The rest of a text and how many characters stand before it. -/
structure Input where
  rest : List Char
  position : Nat

namespace Input

/-- The input after `n` characters. -/
def drop (i : Input) (n : Nat) : Input :=
  ⟨i.rest.drop n, i.position + n⟩

/-- Whether `c` is white space between the parts of a value. -/
def isGap (c : Char) : Bool :=
  c == ' ' || c == '\t' || c == '\n' || c == '\r'

/-- The input after white space. -/
def skipGap (i : Input) : Input :=
  i.drop (i.rest.takeWhile isGap).length

/-- A fault at the input. -/
def fault (i : Input) (words : String) : Flaw :=
  .at words i.position

/-- Whether the input goes on with `s`. -/
def startsWith (i : Input) (s : String) : Bool :=
  s.toList.isPrefixOf i.rest

end Input

/-! ## Strings -/

/-- The number that four hex digits in front of a text stand for, if something follows them. -/
def fourDigits? (cs : List Char) : Option Nat :=
  let ds := cs.take 4
  if 4 < (cs.take 5).length && ds.all fun c => (Hex.digit? c).isSome then
    some (ds.foldl (fun n c => n * 16 + (Hex.digit? c).getD 0) 0)
  else none

/-- The character that one letter after a backslash stands for. -/
def shortEscape? (c : Char) : Option Char :=
  match c with
  | '"' => some '"'
  | '\\' => some '\\'
  | '/' => some '/'
  | 'b' => some '\x08'
  | 'f' => some '\x0c'
  | 'n' => some '\n'
  | 'r' => some '\r'
  | 't' => some '\t'
  | _ => none

def isHighSurrogate (n : Nat) : Bool := 0xD800 ≤ n && n < 0xDC00

def isLowSurrogate (n : Nat) : Bool := 0xDC00 ≤ n && n < 0xE000

/-- The character with the given number. A lone surrogate, which is no character, is replaced. -/
def charOfUnit (n : Nat) : Char :=
  if isHighSurrogate n || isLowSurrogate n then Char.ofNat 0xFFFD else Char.ofNat n

/-- The character of a pair of surrogates. -/
def charOfPair (high low : Nat) : Char :=
  Char.ofNat (0x10000 + (high - 0xD800) * 0x400 + (low - 0xDC00))

/-- Reads what follows `\u`; `i` is at the `u`. A high surrogate takes an escaped low one with it. -/
def readUnit (i : Input) : Except Flaw (Char × Input) :=
  let words := "Invalid \\uXXXX escape"
  match fourDigits? (i.rest.drop 1) with
  | none => .error (i.fault words)
  | some n =>
    let j := i.drop 5
    if isHighSurrogate n && j.startsWith "\\u" && 6 < (j.rest.take 7).length then
      match fourDigits? (j.rest.drop 2) with
      | none => .error ((j.drop 1).fault words)
      | some m => if isLowSurrogate m then .ok (charOfPair n m, j.drop 6) else .ok (charOfUnit n, j)
    else .ok (charOfUnit n, j)

/-- Reads the rest of a string that began at `start`, and its closing quote. -/
def readChars (start : Nat) : (fuel : Nat) → Input → Except Flaw (List Char × Input)
  | 0, i => .ok ([], i)
  | fuel + 1, i =>
    match i.rest with
    | [] => .error (.at "Unterminated string starting at" start)
    | '"' :: _ => .ok ([], i.drop 1)
    | ['\\'] => .error (.at "Unterminated string starting at" start)
    | '\\' :: 'u' :: _ => do
      let (c, j) ← readUnit (i.drop 1)
      let (cs, j) ← readChars start fuel j
      pure (c :: cs, j)
    | '\\' :: e :: _ =>
      match shortEscape? e with
      | none => .error (i.fault "Invalid \\escape")
      | some c => do
        let (cs, j) ← readChars start fuel (i.drop 2)
        pure (c :: cs, j)
    | c :: _ =>
      if c.toNat < 0x20 then .error (i.fault "Invalid control character at")
      else do
        let (cs, j) ← readChars start fuel (i.drop 1)
        pure (c :: cs, j)

/-- Reads a string; the input is at its opening quote. -/
def readString (i : Input) : Except Flaw (String × Input) := do
  let (cs, j) ← readChars i.position (i.rest.length + 1) (i.drop 1)
  pure (String.ofList cs, j)

/-! ## Numbers -/

/-- The digits in front of a text. -/
def leadingDigits (cs : List Char) : List Char :=
  cs.takeWhile fun c => '0' ≤ c && c ≤ '9'

/-- The digits of a whole number in front of a text: a zero, or digits that start with none. -/
def wholeDigits (cs : List Char) : List Char :=
  match cs with
  | '0' :: _ => ['0']
  | cs => leadingDigits cs

/-- The point and digits in front of a text. -/
def fractionText (cs : List Char) : List Char :=
  match cs with
  | '.' :: rest => if (leadingDigits rest).isEmpty then [] else '.' :: leadingDigits rest
  | _ => []

/-- The exponent in front of a text. -/
def exponentText (cs : List Char) : List Char :=
  match cs with
  | e :: rest =>
    if e == 'e' || e == 'E' then
      let (sign, digits) :=
        match rest with
        | s :: rest => if s == '+' || s == '-' then ([s], rest) else ([], s :: rest)
        | [] => ([], [])
      if (leadingDigits digits).isEmpty then [] else e :: (sign ++ leadingDigits digits)
    else []
  | [] => []

/-- Reads a number, or nothing if none is here. -/
def readNumber (i : Input) : Option (Except Flaw (Value × Input)) :=
  let (sign, cs) :=
    match i.rest with
    | '-' :: cs => (['-'], cs)
    | cs => ([], cs)
  let whole := wholeDigits cs
  if whole.isEmpty then none
  else
    let rest := cs.drop whole.length
    let places := fractionText rest
    let exponent := exponentText (rest.drop places.length)
    let text := sign ++ whole ++ places ++ exponent
    let j := i.drop text.length
    if places.isEmpty && exponent.isEmpty then
      match readWhole 10 text with
      | .ok n => some (.ok (.int n, j))
      | .error (.tooLong digits) => some (.error (.tooLong digits))
      | .error .notANumber => none
    else (readFloat text).map fun x => .ok (.float x, j)

/-! ## Values -/

/-- The words that stand for a value. -/
def words : List (String × Value) := [
  ("null", .null),
  ("true", .bool true),
  ("false", .bool false),
  ("NaN", .float (Float.ofBits undefinedBits)),
  ("Infinity", .float (Float.ofBits infinityBits)),
  ("-Infinity", .float (signed true infinityBits))]

mutual

/-- Reads a value. -/
def readValue : (fuel : Nat) → Input → Except Flaw (Value × Input)
  | 0, i => .error (i.fault "Expecting value")
  | fuel + 1, i =>
    match i.rest with
    | '"' :: _ => do
      let (s, j) ← readString i
      pure (.str s, j)
    | '[' :: _ =>
      let j := (i.drop 1).skipGap
      if j.startsWith "]" then .ok (.list [], j.drop 1)
      else do
        let (items, j) ← readItems fuel j
        pure (.list items, j)
    | '\x7b' :: _ =>
      let j := (i.drop 1).skipGap
      if j.startsWith "\x7d" then .ok (.object [], j.drop 1)
      else do
        let (members, j) ← readMembers fuel [] j
        pure (.object members, j)
    | _ =>
      match words.find? fun w => i.startsWith w.1 with
      | some (word, v) => .ok (v, i.drop word.length)
      | none => (readNumber i).getD (.error (i.fault "Expecting value"))

/-- Reads the items of a list and its closing bracket. -/
def readItems : (fuel : Nat) → Input → Except Flaw (List Value × Input)
  | 0, i => .error (i.fault "Expecting value")
  | fuel + 1, i => do
    let (v, j) ← readValue fuel i
    let j := j.skipGap
    match j.rest with
    | ']' :: _ => pure ([v], j.drop 1)
    | ',' :: _ =>
      let (vs, j) ← readItems fuel (j.drop 1).skipGap
      pure (v :: vs, j)
    | _ => throw (j.fault "Expecting ',' delimiter")

/-- Reads the members of an object and its closing brace; `read` are the members so far. -/
def readMembers : (fuel : Nat) → (read : List (String × Value)) → Input →
    Except Flaw (List (String × Value) × Input)
  | 0, _, i => .error (i.fault "Expecting value")
  | fuel + 1, read, i => do
    unless i.startsWith "\"" do
      throw (i.fault "Expecting property name enclosed in double quotes")
    let (name, j) ← readString i
    let j := j.skipGap
    unless j.startsWith ":" do throw (j.fault "Expecting ':' delimiter")
    let (v, j) ← readValue fuel (j.drop 1).skipGap
    let read := Entries.set name v read
    let j := j.skipGap
    match j.rest with
    | '\x7d' :: _ => pure (read, j.drop 1)
    | ',' :: _ => readMembers fuel read (j.drop 1).skipGap
    | _ => throw (j.fault "Expecting ',' delimiter")

end

/-- Reads a text that holds one value. -/
def read (text : List Char) : Except Flaw Value :=
  if text.head?.any fun c => c.toNat == 0xFEFF then
    .error (.at "Unexpected UTF-8 BOM (decode using utf-8-sig)" 0)
  else do
    let (v, j) ← readValue (2 * text.length + 2) (Input.skipGap ⟨text, 0⟩)
    let j := j.skipGap
    if j.rest.isEmpty then pure v else throw (j.fault "Extra data")

/-- The words for a fault in `text`: line and column count from one. -/
def Flaw.message (text : List Char) : Flaw → String
  | .at words position =>
    let before := text.take position
    let column := (before.reverse.takeWhile (· != '\n')).length + 1
    words ++ ": line " ++ toString (before.count '\n' + 1) ++ " column " ++ toString column ++
      " (char " ++ toString position ++ ")"
  | .tooLong digits => (WholeFlaw.tooLong digits).message 10 []

end Keyring.Json
