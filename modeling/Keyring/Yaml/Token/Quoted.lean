import Keyring.Hex
import Keyring.Yaml.Fault
import Keyring.Yaml.Token.Plain
/-!
# Quoted scalars

Between single quotes only a doubled quote is special; between double quotes a backslash starts an
escape. White space is kept, but a line break folds together with the white space around it.
-/

namespace Keyring.Yaml

/-- The quotes of scalars. -/
inductive Quote where
  | single
  | double
  deriving DecidableEq, Repr

def Quote.char : Quote → Char
  | .single => '\x27'
  | .double => '"'

/-- The characters that one letter after a backslash stands for. -/
def shortEscape? (c : Char) : Option Char :=
  match c with
  | '0' => some '\x00'
  | 'a' => some '\x07'
  | 'b' => some '\x08'
  | 't' => some '\t'
  | '\t' => some '\t'
  | 'n' => some '\n'
  | 'v' => some '\x0b'
  | 'f' => some '\x0c'
  | 'r' => some '\r'
  | 'e' => some '\x1b'
  | ' ' => some ' '
  | '"' => some '"'
  | '/' => some '/'
  | '\\' => some '\\'
  | 'N' => some (Char.ofNat 0x85)
  | '_' => some (Char.ofNat 0xA0)
  | 'L' => some (Char.ofNat 0x2028)
  | 'P' => some (Char.ofNat 0x2029)
  | _ => none

/-- The number of hex digits that a letter after a backslash announces. -/
def escapeWidth? (c : Char) : Option Nat :=
  match c with
  | 'x' => some 2
  | 'u' => some 4
  | 'U' => some 8
  | _ => none

/-- Whether `c` is a hex digit. -/
def isHexDigit (c : Char) : Bool :=
  (Hex.digit? c).isSome

/-- The number that hex digits stand for. -/
def hexNumber (cs : List Char) : Nat :=
  cs.foldl (fun n c => n * 16 + (Hex.digit? c).getD 0) 0

/-- The character with the given number. A surrogate, which is no character, is replaced. -/
def charOfCode (n : Nat) : Except Fault Char :=
  if 0x7FFFFFFF < n then .error (.value .overflow "Python int too large to convert to C int")
  else if 0x10FFFF < n then .error (.value .value "chr() arg not in range(0x110000)")
  else .ok (if 0xD800 ≤ n && n < 0xE000 then Char.ofNat 0xFFFD else Char.ofNat n)

/-- Reads the breaks after a first line break, and the white space around them. -/
def quotedBreaks (start : Mark) : (fuel : Nat) → Cursor → Except Fault (List Char × Cursor)
  | 0, c => .ok ([], c)
  | fuel + 1, c =>
    if c.atAnyMarker then
      .error (.inside .scanner "while scanning a quoted scalar" start
        "found unexpected document separator" c.mark)
    else
      let c := c.skipWhile fun x => x == ' ' || x == '\t'
      if isBreak c.peek then do
        let (first, c) := c.lineBreak
        let (more, c) ← quotedBreaks start fuel c
        pure (first ++ more, c)
      else .ok ([], c)

/-- Reads white space inside quotes. -/
def quotedSpaces (start : Mark) (fuel : Nat) (c : Cursor) : Except Fault (List Char × Cursor) :=
  let (spaces, c) := c.span fun x => x == ' ' || x == '\t'
  if c.peek.toNat = 0 then
    .error (.inside .scanner "while scanning a quoted scalar" start
      "found unexpected end of stream" c.mark)
  else if isBreak c.peek then do
    let (first, c) := c.lineBreak
    let (more, c) ← quotedBreaks start fuel c
    pure (folded first more, c)
  else .ok (spaces, c)

/-- Reads an escape; the cursor is after the backslash. -/
def quotedEscape (start : Mark) (fuel : Nat) (c : Cursor) : Except Fault (List Char × Cursor) :=
  match shortEscape? c.peek, escapeWidth? c.peek with
  | some x, _ => .ok ([x], c.next)
  | none, some width =>
    let c := c.next
    match (List.range width).find? fun k => !isHexDigit (c.peekAt k) with
    | some k =>
      .error (.inside .scanner "while scanning a double-quoted scalar" start
        (butFound ("escape sequence of " ++ toString width ++ " hexadecimal numbers")
          (c.peekAt k)) c.mark)
    | none => do
      let x ← charOfCode (hexNumber (c.rest.take width))
      pure ([x], c.advance width)
  | none, none =>
    if isBreak c.peek then quotedBreaks start fuel c.lineBreak.2
    else
      .error (.inside .scanner "while scanning a double-quoted scalar" start
        ("found unknown escape character " ++ Text.quotedChar c.peek) c.mark)

/-- Whether `c` interrupts a run of ordinary characters inside quotes. -/
def interruptsQuoted (c : Char) : Bool :=
  c == '\x27' || c == '"' || c == '\\' || isBlankOrEnd c

/-- Reads up to white space or the closing quote. -/
def quotedRun (q : Quote) (start : Mark) : (fuel : Nat) → Cursor → Except Fault (List Char × Cursor)
  | 0, c => .ok ([], c)
  | fuel + 1, c => do
    let (run, c) := c.span (!interruptsQuoted ·)
    let x := c.peek
    if q = .single ∧ x = '\x27' ∧ c.peekAt 1 = '\x27' then
      let (more, c) ← quotedRun q start fuel (c.advance 2)
      pure (run ++ '\x27' :: more, c)
    else if (q = .double ∧ x = '\x27') ∨ (q = .single ∧ (x = '"' ∨ x = '\\')) then
      let (more, c) ← quotedRun q start fuel c.next
      pure (run ++ x :: more, c)
    else if q = .double ∧ x = '\\' then
      let (escaped, c) ← quotedEscape start fuel c.next
      let (more, c) ← quotedRun q start fuel c
      pure (run ++ escaped ++ more, c)
    else pure (run, c)

/-- Reads the rest of a quoted scalar and its closing quote. -/
def quotedBody (q : Quote) (start : Mark) :
    (fuel : Nat) → Cursor → Except Fault (List Char × Cursor)
  | 0, c => .ok ([], c)
  | fuel + 1, c => do
    let (run, c) ← quotedRun q start fuel c
    if c.peek = q.char then pure (run, c.next)
    else
      let (spaces, c) ← quotedSpaces start fuel c
      let (more, c) ← quotedBody q start fuel c
      pure (run ++ spaces ++ more, c)

/-- Reads a quoted scalar; the cursor is at its opening quote. -/
def readQuoted (q : Quote) (c : Cursor) : Except Fault (List Char × Cursor) :=
  quotedBody q c.mark (c.rest.length + 2) c.next

end Keyring.Yaml
