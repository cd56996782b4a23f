import Keyring.Yaml.Mark
/-!
# Plain scalars

A plain scalar runs to the first character that ends it: white space, a colon with white space
after it, and inside brackets also a comma, a question mark or a bracket. It goes on after spaces
and over line breaks, which fold, unless a comment, a document marker or too little indentation
follows.
-/

namespace Keyring.Yaml

/-- The brackets and the comma of flow collections. -/
def isFlowMark (c : Char) : Bool :=
  c == ',' || c == '[' || c == ']' || c == '\x7b' || c == '\x7d'

/-- Whether `c`, which `rest` follows, ends a plain scalar. -/
def endsPlain (flow : Bool) (c : Char) (rest : List Char) : Bool :=
  let next := rest.headD '\x00'
  isBlankOrEnd c || (c == ':' && (isBlankOrEnd next || (flow && isFlowMark next))) ||
    (flow && (c == '?' || isFlowMark c))

/-- The characters of a plain scalar up to the first one that ends it. -/
def plainRun (flow : Bool) : List Char → List Char
  | [] => []
  | c :: rest => if endsPlain flow c rest then [] else c :: plainRun flow rest

/-- What line breaks inside a scalar fold to: a single one becomes a space, and of several the
first is dropped. -/
def folded (first more : List Char) : List Char :=
  if first != ['\n'] then first ++ more else if more.isEmpty then [' '] else more

/-- Whether the line at the cursor is a document marker. -/
def Cursor.atAnyMarker (c : Cursor) : Bool :=
  c.atMarker "---" || c.atMarker "..."

/-- Skips the spaces and reads the line breaks at the cursor; `none` at a document marker. -/
def plainBreaks : (fuel : Nat) → Cursor → Option (List Char) × Cursor
  | 0, c => (some [], c)
  | fuel + 1, c =>
    if c.peek == ' ' then plainBreaks fuel c.next
    else if isBreak c.peek then
      let (first, c) := c.lineBreak
      if c.atAnyMarker then (none, c)
      else
        let (more?, c) := plainBreaks fuel c
        (more?.map (first ++ ·), c)
    else (some [], c)

/-- The white space after a part of a plain scalar. -/
structure PlainGap where
  /-- What it folds to; nothing if the scalar ends here. -/
  text : List Char
  /-- A line break was passed. -/
  broke : Bool
  cursor : Cursor

/-- Reads the white space after a part of a plain scalar. -/
def plainGap (c : Cursor) : PlainGap :=
  let (spaces, c) := c.span (· == ' ')
  if isBreak c.peek then
    let (first, c) := c.lineBreak
    if c.atAnyMarker then ⟨[], true, c⟩
    else
      match plainBreaks c.rest.length c with
      | (none, c) => ⟨[], true, c⟩
      | (some more, c) => ⟨folded first more, true, c⟩
  else ⟨spaces, false, c⟩

/-- A plain scalar. -/
structure Plain where
  text : List Char
  /-- It was left over a line break, so that a new key may start. -/
  broke : Bool
  cursor : Cursor

/-- Reads a plain scalar or a further part of one, if one is here; its lines are indented by at
least `indent` outside flow collections. -/
def readPlain (flow : Bool) (indent : Int) : (fuel : Nat) → Cursor → Option Plain
  | 0, _ => none
  | fuel + 1, c =>
    let run := if c.peek == '#' then [] else plainRun flow c.rest
    if run.isEmpty then none
    else
      let gap := plainGap (c.advance run.length)
      let here : Plain := ⟨run, gap.broke, gap.cursor⟩
      if gap.text.isEmpty || (!flow && gap.cursor.mark.column < indent) then some here
      else
        match readPlain flow indent fuel gap.cursor with
        | none => some here
        | some more => some { more with text := run ++ gap.text ++ more.text }

end Keyring.Yaml
