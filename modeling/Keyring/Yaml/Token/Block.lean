import Keyring.Yaml.Fault
/-!
# Block scalars

A block scalar starts with a header (how to treat the line breaks at its end, how far it is
indented) and holds the lines below it that are indented far enough. A literal one keeps its line
breaks; a folded one turns a single break between two lines that do not start with white space
into a space.
-/

namespace Keyring.Yaml

/-- What becomes of the line breaks at the end of a block scalar. -/
inductive Chomping where
  /-- All of them go. -/
  | strip
  /-- The first one stays. -/
  | clip
  /-- All of them stay. -/
  | keep
  deriving DecidableEq, Repr

structure BlockHeader where
  chomping : Chomping
  /-- How much further than its parent the scalar is indented, if the header says so. -/
  increment? : Option Nat
  deriving DecidableEq, Repr

def chomping? (c : Char) : Option Chomping :=
  if c = '+' then some .keep else if c = '-' then some .strip else none

/-- Reads an indentation indicator, if one is here. -/
def readIncrement (start : Mark) (c : Cursor) : Except Fault (Option Nat × Cursor) :=
  if '0' ≤ c.peek && c.peek ≤ '9' then
    let n := c.peek.toNat - '0'.toNat
    if n = 0 then
      .error (.inside .scanner "while scanning a block scalar" start
        "expected indentation indicator in the range 1-9, but found 0" c.mark)
    else .ok (some n, c.next)
  else .ok (none, c)

/-- Reads the indicators of a header, in either order. -/
def readIndicators (start : Mark) (c : Cursor) : Except Fault (BlockHeader × Cursor) := do
  let (header, c) ←
    match chomping? c.peek with
    | some chomping => do
      let (increment?, c) ← readIncrement start c.next
      pure ((⟨chomping, increment?⟩ : BlockHeader), c)
    | none => do
      let (increment?, c) ← readIncrement start c
      match increment?, chomping? c.peek with
      | some _, some chomping => pure ((⟨chomping, increment?⟩ : BlockHeader), c.next)
      | _, _ => pure ((⟨.clip, increment?⟩ : BlockHeader), c)
  if isSpaceOrEnd c.peek then pure (header, c)
  else
    .error (.inside .scanner "while scanning a block scalar" start
      (butFound "chomping or indentation indicators" c.peek) c.mark)

/-- Skips spaces, a comment and the line break after them. -/
def endOfHeader (start : Mark) (c : Cursor) : Except Fault Cursor :=
  let c := (c.skipWhile (· == ' ')).skipComment
  if isLineEnd c.peek then .ok c.lineBreak.2
  else
    .error (.inside .scanner "while scanning a block scalar" start
      (butFound "a comment or a line break" c.peek) c.mark)

/-- Reads the empty lines above the text: their breaks, and the widest indentation among them and
the line after them. -/
def leadingBreaks : (fuel : Nat) → Cursor → List Char × Nat × Cursor
  | 0, c => ([], 0, c)
  | fuel + 1, c =>
    if c.peek == ' ' then
      let c := c.next
      let (breaks, widest, d) := leadingBreaks fuel c
      (breaks, max c.mark.column widest, d)
    else if isBreak c.peek then
      let (first, c) := c.lineBreak
      let (breaks, widest, d) := leadingBreaks fuel c
      (first ++ breaks, widest, d)
    else ([], 0, c)

/-- Skips spaces up to the given column. -/
def skipIndent (indent : Nat) (c : Cursor) : Cursor :=
  c.advance ((c.rest.take (indent - c.mark.column)).takeWhile (· == ' ')).length

/-- Reads the empty lines before a line of text: their breaks, and the cursor at most `indent` wide
inside the line. -/
def blockBreaks (indent : Nat) : (fuel : Nat) → Cursor → List Char × Cursor
  | 0, c => ([], c)
  | fuel + 1, c =>
    let c := skipIndent indent c
    if isBreak c.peek then
      let (first, c) := c.lineBreak
      let (more, c) := blockBreaks indent fuel c
      (first ++ more, c)
    else ([], c)

/-- The lines of a block scalar. -/
structure BlockLines where
  text : List Char
  /-- The break at the end of the last line. -/
  lastBreak : List Char
  /-- The breaks of the empty lines below it. -/
  trailing : List Char
  cursor : Cursor

/-- Whether a line of text is at the cursor. -/
def atBlockLine (indent : Nat) (c : Cursor) : Bool :=
  c.mark.column == indent && c.peek.toNat != 0

/-- Whether the line at the cursor starts with white space. -/
def startsBlank (c : Cursor) : Bool :=
  c.peek == ' ' || c.peek == '\t'

/-- Reads lines of text; `breaks` are those of the empty lines above. -/
def blockLines (fold : Bool) (indent : Nat) :
    (fuel : Nat) → (breaks : List Char) → Cursor → BlockLines
  | 0, breaks, c => ⟨[], [], breaks, c⟩
  | fuel + 1, breaks, c =>
    if atBlockLine indent c then
      let plainStart := !startsBlank c
      let (line, c) := c.span (!isLineEnd ·)
      let (lineBreak, c) := c.lineBreak
      let (next, c) := blockBreaks indent (fuel + 1) c
      if atBlockLine indent c then
        let more := blockLines fold indent fuel next c
        let joint :=
          if fold && lineBreak == ['\n'] && plainStart && !startsBlank c then
            if next.isEmpty then [' '] else []
          else lineBreak
        { more with text := breaks ++ line ++ joint ++ more.text }
      else ⟨breaks ++ line, lineBreak, next, c⟩
    else ⟨[], [], breaks, c⟩

/-- The text of a block scalar from its lines. -/
def BlockLines.chomp (b : BlockLines) (chomping : Chomping) : List Char :=
  match chomping with
  | .strip => b.text
  | .clip => b.text ++ b.lastBreak
  | .keep => b.text ++ b.lastBreak ++ b.trailing

/-- Reads a block scalar inside a node indented by `parent`; the cursor is at its indicator. -/
def readBlock (fold : Bool) (parent : Int) (c : Cursor) : Except Fault (List Char × Cursor) := do
  let start := c.mark
  let (header, c) ← readIndicators start c.next
  let c ← endOfHeader start c
  let least := max 1 (parent + 1).toNat
  let fuel := c.rest.length + 1
  let (breaks, indent, c) :=
    match header.increment? with
    | none =>
      let (breaks, widest, c) := leadingBreaks fuel c
      (breaks, max least widest, c)
    | some n =>
      let indent := least + n - 1
      let (breaks, c) := blockBreaks indent fuel c
      (breaks, indent, c)
  let lines := blockLines fold indent fuel breaks c
  pure (lines.chomp header.chomping, lines.cursor)

end Keyring.Yaml
