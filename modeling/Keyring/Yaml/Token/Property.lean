import Keyring.Decimal.Text
import Keyring.Text.Utf8
import Keyring.Yaml.Token.Basic
import Keyring.Yaml.Token.Quoted
/-!
# Anchors, tags and directives

The names of anchors and directives are made of letters, digits, hyphens and underscores. A tag is
verbatim between angle brackets, or a handle (`!`, `!!` or `!name!`) and a suffix; both parts of a
tag name are URI characters, with others as the escaped bytes of their UTF-8 form.
-/

namespace Keyring.Yaml

/-- Whether `c` may stand in a name. -/
def isWordChar (c : Char) : Bool :=
  ('0' ≤ c && c ≤ '9') || ('A' ≤ c && c ≤ 'Z') || ('a' ≤ c && c ≤ 'z') || c == '-' || c == '_'

/-- Whether `c` may stand in a tag. -/
def isUriChar (c : Char) : Bool :=
  isWordChar c || "-;/?:@&=+$,_.!~*'()[]%".toList.contains c

/-- What an anchor's name may be followed by, besides white space. -/
def followsAnchor (c : Char) : Bool :=
  isBlankOrEnd c || c.toNat == 0x60 || "?:,]\x7d%@".toList.contains c

/-- A fault in something that began at `start`: `wanted` was expected at the cursor. -/
def missing (context : String) (start : Mark) (wanted : String) (c : Cursor) : Fault :=
  .inside .scanner context start (butFound wanted c.peek) c.mark

/-! ## Anchors and aliases -/

/-- Reads the name of an anchor or alias; the cursor is at the sign in front of it. -/
def readAnchor (what : String) (c : Cursor) : Except Fault (String × Cursor) :=
  let start := c.mark
  let context := "while scanning an " ++ what
  let (name, c) := c.next.span isWordChar
  if name.isEmpty || !followsAnchor c.peek then
    .error (missing context start "alphabetic or numeric character" c)
  else .ok (String.ofList name, c)

/-! ## Tags -/

/-- Reads the bytes of an escaped character. -/
def escapedBytes (what : String) (start : Mark) :
    (fuel : Nat) → Cursor → Except Fault (List UInt8 × Cursor)
  | 0, c => .ok ([], c)
  | fuel + 1, c =>
    if c.peek == '%' then
      let c := c.next
      match [0, 1].find? fun k => !isHexDigit (c.peekAt k) with
      | some k =>
        .error (.inside .scanner ("while scanning a " ++ what) start
          (butFound "URI escape sequence of 2 hexadecimal numbers" (c.peekAt k)) c.mark)
      | none => do
        let (more, d) ← escapedBytes what start fuel (c.advance 2)
        pure ((hexNumber (c.rest.take 2)).toUInt8 :: more, d)
    else .ok ([], c)

/-- Reads escaped characters. -/
def readEscapes (what : String) (start : Mark) (c : Cursor) :
    Except Fault (List Char × Cursor) := do
  let (bytes, d) ← escapedBytes what start c.rest.length c
  match Text.Utf8.decode bytes with
  | .ok cs => pure (cs, d)
  | .error flaw =>
    throw (.marked {
      stage := .scanner
      context? := some ("while scanning a " ++ what)
      contextMark? := some start
      problem := flaw.message
      mark := c.mark
      origin? := some (.decoding, flaw.message) })

/-- Reads URI characters and escapes as far as they go. -/
def uriRun (what : String) (start : Mark) :
    (fuel : Nat) → Cursor → Except Fault (List Char × Cursor)
  | 0, c => .ok ([], c)
  | fuel + 1, c => do
    let (run, c) := c.span fun x => isUriChar x && x != '%'
    if c.peek == '%' then
      let (escaped, c) ← readEscapes what start c
      let (more, c) ← uriRun what start fuel c
      pure (run ++ escaped ++ more, c)
    else pure (run, c)

/-- Reads a URI, which may not be empty. -/
def readUri (what : String) (start : Mark) (c : Cursor) : Except Fault (String × Cursor) := do
  if isUriChar c.peek then
    let (uri, c) ← uriRun what start (c.rest.length + 1) c
    pure (String.ofList uri, c)
  else throw (missing ("while parsing a " ++ what) start "URI" c)

/-- Reads a handle: `!`, or `!`, a name that may be empty, and `!`. -/
def readHandle (what : String) (start : Mark) (c : Cursor) : Except Fault (String × Cursor) :=
  let context := "while scanning a " ++ what
  if c.peek != '!' then .error (missing context start "'!'" c)
  else if c.peekAt 1 == ' ' then .ok ("!", c.next)
  else
    let (name, d) := c.next.span isWordChar
    if d.peek != '!' then .error (missing context start "'!'" d)
    else .ok (String.ofList ('!' :: name ++ ['!']), d.next)

/-- Whether the tag at the cursor, up to the next space or line end, has a second `!`. -/
def hasHandle (c : Cursor) : Bool :=
  ((c.rest.drop 1).takeWhile fun x => !isSpaceOrEnd x).contains '!'

/-- Reads a tag; the cursor is at its `!`. -/
def readTag (c : Cursor) : Except Fault (TokenKind × Cursor) := do
  let start := c.mark
  let (tag, c) ←
    if c.peekAt 1 == '<' then do
      let (uri, c) ← readUri "tag" start (c.advance 2)
      if c.peek != '>' then throw (missing "while parsing a tag" start "'>'" c)
      pure (TokenKind.tag none uri, c.next)
    else if isBlankOrEnd (c.peekAt 1) then pure (TokenKind.tag none "!", c.next)
    else do
      let (handle, c) ← if hasHandle c then readHandle "tag" start c else pure ("!", c.next)
      let (suffix, c) ← readUri "tag" start c
      pure (TokenKind.tag (some handle) suffix, c)
  if isSpaceOrEnd c.peek then pure (tag, c)
  else throw (missing "while scanning a tag" start "' '" c)

/-! ## Directives -/

/-- Reads the name of a directive. -/
def readDirectiveName (start : Mark) (c : Cursor) : Except Fault (String × Cursor) :=
  let (name, c) := c.span isWordChar
  if name.isEmpty || !isSpaceOrEnd c.peek then
    .error (missing "while scanning a directive" start "alphabetic or numeric character" c)
  else .ok (String.ofList name, c)

/-- Reads a part of a version number. -/
def readVersionNumber (start : Mark) (c : Cursor) : Except Fault (Nat × Cursor) :=
  let (digits, d) := c.span fun x => '0' ≤ x && x ≤ '9'
  if digits.isEmpty then .error (missing "while scanning a directive" start "a digit" c)
  else
    match Decimal.readWhole 10 digits with
    | .ok n => .ok (n.toNat, d)
    | .error flaw => .error (.value .value (flaw.message 10 digits))

/-- Reads a version. -/
def readVersion (start : Mark) (c : Cursor) : Except Fault (Directive × Cursor) := do
  let context := "while scanning a directive"
  let (major, c) ← readVersionNumber start (c.skipWhile (· == ' '))
  if c.peek != '.' then throw (missing context start "a digit or '.'" c)
  let (minor, c) ← readVersionNumber start c.next
  if !isSpaceOrEnd c.peek then throw (missing context start "a digit or ' '" c)
  pure (.version major minor, c)

/-- Reads what a handle stands for. -/
def readTagDirective (start : Mark) (c : Cursor) : Except Fault (Directive × Cursor) := do
  let context := "while scanning a directive"
  let (handle, c) ← readHandle "directive" start (c.skipWhile (· == ' '))
  if c.peek != ' ' then throw (missing context start "' '" c)
  let (uri, c) ← readUri "directive" start (c.skipWhile (· == ' '))
  if !isSpaceOrEnd c.peek then throw (missing context start "' '" c)
  pure (.tag handle uri, c)

/-- Reads a directive line; the cursor is at its `%`. The token ends where its value does. -/
def readDirective (c : Cursor) : Except Fault (Directive × Mark × Cursor) := do
  let start := c.mark
  let (name, c) ← readDirectiveName start c.next
  let (directive, c, finish) ←
    if name = "YAML" then do
      let (d, c) ← readVersion start c
      pure (d, c, c.mark)
    else if name = "TAG" then do
      let (d, c) ← readTagDirective start c
      pure (d, c, c.mark)
    else pure (Directive.other, c.skipWhile (!isLineEnd ·), c.mark)
  let c := (c.skipWhile (· == ' ')).skipComment
  if isLineEnd c.peek then pure (directive, finish, c.lineBreak.2)
  else throw (missing "while scanning a directive" start "a comment or a line break" c)

end Keyring.Yaml
