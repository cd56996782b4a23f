/-!
# Places in a text

A `Mark` is a place in a YAML text: how many characters stand before it, its line and its column. A
`Cursor` is a mark with the text that follows; past the end of the text it sees a NUL, which no
YAML text holds.
-/

namespace Keyring.Yaml

/-- A place in a text, all counts from zero. -/
structure Mark where
  index : Nat
  line : Nat
  column : Nat
  deriving DecidableEq, Repr

/-- Whether `c` ends a line. -/
def isBreak (c : Char) : Bool :=
  c == '\n' || c == '\r' || c.toNat == 0x85 || c.toNat == 0x2028 || c.toNat == 0x2029

/-- Whether `c` ends a line or the text. -/
def isLineEnd (c : Char) : Bool :=
  c.toNat == 0 || isBreak c

/-- Whether `c` is a space or ends a line or the text. -/
def isSpaceOrEnd (c : Char) : Bool :=
  c == ' ' || isLineEnd c

/-- Whether `c` is a space or a tab or ends a line or the text. -/
def isBlankOrEnd (c : Char) : Bool :=
  c == '\t' || isSpaceOrEnd c

/-- The place after the character `c`, which `next` follows. A byte order mark has no width. -/
def Mark.past (m : Mark) (c next : Char) : Mark :=
  if isBreak c && (c != '\r' || next != '\n') then ⟨m.index + 1, m.line + 1, 0⟩
  else if c.toNat == 0xFEFF then { m with index := m.index + 1 }
  else { m with index := m.index + 1, column := m.column + 1 }

/-! ## The line around a mark -/

/-- At most this many characters to each side of a mark are looked at. -/
def snippetReach : Nat := 37

/-- So many of them are left out again when there are that many. -/
def snippetCut : Nat := 5

/-- The characters of the line on one side of a mark, and whether more were left out. -/
def snippetSide (cs : List Char) : List Char × Bool :=
  let side := (cs.take snippetReach).takeWhile (!isLineEnd ·)
  if side.length < snippetReach then (side, false)
  else (side.take (snippetReach - snippetCut), true)

/-- The part of the line around the mark, and a caret under the mark in the line below. -/
def Mark.snippet (text : List Char) (m : Mark) : String :=
  let (left, cutLeft) := snippetSide (text.take m.index).reverse
  let (right, cutRight) := snippetSide (text.drop m.index)
  let dots := " ... ".toList
  let start := List.replicate 4 ' '
  let before := (if cutLeft then dots else []) ++ left.reverse
  let after := right ++ if cutRight then dots else []
  String.ofList
    (start ++ before ++ after ++ '\n' :: (start ++ List.replicate before.length ' ' ++ ['^']))

/-- Where a mark is, for a message. -/
def Mark.describe (text : List Char) (m : Mark) : String :=
  "  in \"<unicode string>\", line " ++ toString (m.line + 1) ++ ", column " ++
    toString (m.column + 1) ++ ":\n" ++ m.snippet text

/-! ## Cursors -/

/-- A place in a text and what follows there. -/
structure Cursor where
  rest : List Char
  mark : Mark
  deriving DecidableEq, Repr

namespace Cursor

/-- The start of a text. -/
def ofText (text : List Char) : Cursor :=
  ⟨text, ⟨0, 0, 0⟩⟩

/-- The character at the cursor. -/
def peek (c : Cursor) : Char :=
  c.rest.headD '\x00'

/-- The character `k` places further on. -/
def peekAt (c : Cursor) (k : Nat) : Char :=
  c.rest.getD k '\x00'

/-- Whether the text goes on with `s`. -/
def startsWith (c : Cursor) (s : String) : Bool :=
  s.toList.isPrefixOf c.rest

/-- One character further on. -/
def next (c : Cursor) : Cursor :=
  match c.rest with
  | [] => c
  | x :: xs => ⟨xs, c.mark.past x (xs.headD '\x00')⟩

/-- So many characters further on. -/
def advance : (count : Nat) → Cursor → Cursor
  | 0, c => c
  | count + 1, c => advance count c.next

/-- The characters that satisfy `p`, and the cursor after them. -/
def span (p : Char → Bool) (c : Cursor) : List Char × Cursor :=
  let run := c.rest.takeWhile p
  (run, c.advance run.length)

/-- The cursor after the characters that satisfy `p`. -/
def skipWhile (p : Char → Bool) (c : Cursor) : Cursor :=
  (c.span p).2

/-- Reads one line break, if there is one: as a line feed unless it is a separator of its own. -/
def lineBreak (c : Cursor) : List Char × Cursor :=
  match c.rest with
  | '\r' :: '\n' :: _ => (['\n'], c.advance 2)
  | x :: _ =>
    if x == '\n' || x == '\r' || x.toNat == 0x85 then (['\n'], c.next)
    else if isBreak x then ([x], c.next)
    else ([], c)
  | [] => ([], c)

/-- Whether a line with a document marker of three equal characters starts here. -/
def atMarker (c : Cursor) (s : String) : Bool :=
  c.startsWith s && isBlankOrEnd (c.peekAt 3)

/-- The cursor after a comment, if one starts here. -/
def skipComment (c : Cursor) : Cursor :=
  if c.peek == '#' then c.skipWhile (!isLineEnd ·) else c

end Cursor

end Keyring.Yaml
