import Keyring.Yaml.Token.Block
import Keyring.Yaml.Token.Property
/-!
# From text to tokens

`tokens` takes a text apart. Indentation yields tokens of its own: a line that is indented further
opens a block collection, one that is indented less closes it. A key needs no sign in front, so a
token that could start one is remembered; when a `:` follows on the same line the sign is put
before it after the fact. Tokens therefore wait in a queue until no remembered key could still
change what stands in front of it. `tokens` delivers them in the order in which they leave the
queue, with the fault that stops the scan, if any, after those that left before it was found.
-/

namespace Keyring.Yaml

/-- A place where a key without a sign may have started. -/
structure SimpleKey where
  /-- The number of the token that starts there. -/
  number : Nat
  /-- The text makes no sense unless a key starts there. -/
  required : Bool
  mark : Mark
  deriving DecidableEq, Repr

/-- The state of a scan. -/
structure Scan where
  cursor : Cursor
  /-- Tokens that wait. -/
  queue : List Token
  /-- How many tokens have left the queue. -/
  taken : Nat
  finished : Bool
  /-- How many flow collections are open. -/
  flowLevel : Nat
  /-- The column of the innermost block collection, -1 outside all of them. -/
  indent : Int
  /-- The columns of the others, the innermost first. -/
  indents : List Int
  /-- A key without a sign may start at the cursor. -/
  keyAllowed : Bool
  /-- The keys that may have started, by flow level. -/
  keys : List (Nat × SimpleKey)

namespace Scan

/-- The start of a scan. -/
def ofText (text : List Char) : Scan where
  cursor := .ofText text
  queue := []
  taken := 0
  finished := false
  flowLevel := 0
  indent := -1
  indents := []
  keyAllowed := true
  keys := []

def mark (s : Scan) : Mark := s.cursor.mark

def inFlow (s : Scan) : Bool := s.flowLevel != 0

def push (s : Scan) (t : Token) : Scan :=
  { s with queue := s.queue ++ [t] }

/-- Adds a token that takes no room, at the cursor. -/
def pushEmpty (s : Scan) (kind : TokenKind) : Scan :=
  s.push ⟨kind, s.mark, s.mark⟩

/-- Adds a token that is the next `width` characters. -/
def pushSign (s : Scan) (kind : TokenKind) (width : Nat) : Scan :=
  let c := s.cursor.advance width
  { s.push ⟨kind, s.mark, c.mark⟩ with cursor := c }

/-! ## Keys without a sign -/

/-- What is wrong when `k` has to be a key and turns out not to be one. -/
def keyFault (s : Scan) (k : SimpleKey) : Fault :=
  .inside .scanner "while scanning a simple key" k.mark "could not find expected ':'" s.mark

/-- A key has to be followed by its `:` on the same line and within this many characters. -/
def keyReach : Nat := 1024

def isStale (s : Scan) (k : SimpleKey) : Bool :=
  k.mark.line != s.mark.line || keyReach < s.mark.index - k.mark.index

/-- Forgets the keys whose `:` can no longer come. -/
def dropStaleKeys (s : Scan) : Except Fault Scan :=
  match s.keys.find? fun k => s.isStale k.2 && k.2.required with
  | some (_, k) => .error (s.keyFault k)
  | none => .ok { s with keys := s.keys.filter fun k => !s.isStale k.2 }

/-- The key that may have started at the present flow level. -/
def key? (s : Scan) : Option SimpleKey :=
  s.keys.lookup s.flowLevel

/-- Forgets the key at the present flow level. -/
def forgetKey (s : Scan) : Scan :=
  { s with keys := s.keys.filter fun k => k.1 != s.flowLevel }

/-- Gives the key at the present flow level up. -/
def dropKey (s : Scan) : Except Fault Scan :=
  match s.key?.filter (·.required) with
  | some k => .error (s.keyFault k)
  | none => .ok s.forgetKey

/-- Remembers that a key may start at the cursor, where one is allowed. -/
def saveKey (s : Scan) : Except Fault Scan := do
  if s.keyAllowed then
    let s ← s.dropKey
    let k : SimpleKey :=
      { number := s.taken + s.queue.length
        required := !s.inFlow && s.indent == s.mark.column
        mark := s.mark }
    pure { s with keys := s.keys ++ [(s.flowLevel, k)] }
  else pure s

/-! ## Indentation -/

/-- Closes the block collections that are indented further than `column`; `outer` are the columns
of those around the innermost. -/
def unwindTo (column : Int) : (outer : List Int) → Scan → Scan
  | [], s => s
  | i :: outer, s =>
    if column < s.indent then
      unwindTo column outer { s.pushEmpty .blockEnd with indent := i, indents := outer }
    else s

def unwind (s : Scan) (column : Int) : Scan :=
  if s.inFlow then s else unwindTo column s.indents s

/-- Opens a block collection at `column` unless one is open there. -/
def indentTo (s : Scan) (column : Nat) : Option Scan :=
  if s.indent < column then some { s with indent := column, indents := s.indent :: s.indents }
  else none

/-- Opens a block collection at the cursor unless one is open there. -/
def openBlock (s : Scan) (kind : TokenKind) : Scan :=
  match s.indentTo s.mark.column with
  | some s => s.pushEmpty kind
  | none => s

/-! ## One token -/

def fetchStreamEnd (s : Scan) : Except Fault Scan := do
  let s ← (s.unwind (-1)).dropKey
  pure { s.pushEmpty .streamEnd with keyAllowed := false, keys := [], finished := true }

def fetchDirective (s : Scan) : Except Fault Scan := do
  let s ← (s.unwind (-1)).dropKey
  let (directive, finish, c) ← readDirective s.cursor
  pure { s.push ⟨.directive directive, s.mark, finish⟩ with keyAllowed := false, cursor := c }

def fetchDocumentSign (s : Scan) (kind : TokenKind) : Except Fault Scan := do
  let s ← (s.unwind (-1)).dropKey
  pure ({ s with keyAllowed := false }.pushSign kind 3)

def fetchFlowStart (s : Scan) (kind : TokenKind) : Except Fault Scan := do
  let s ← s.saveKey
  pure ({ s with flowLevel := s.flowLevel + 1, keyAllowed := true }.pushSign kind 1)

def fetchFlowEnd (s : Scan) (kind : TokenKind) : Except Fault Scan := do
  let s ← s.dropKey
  pure ({ s with flowLevel := s.flowLevel - 1, keyAllowed := false }.pushSign kind 1)

def fetchFlowEntry (s : Scan) : Except Fault Scan := do
  let s ← s.dropKey
  pure ({ s with keyAllowed := true }.pushSign .flowEntry 1)

/-- A fault unless an entry may start at the cursor. -/
def checkEntry (s : Scan) (what : String) : Except Fault Unit :=
  if s.inFlow || s.keyAllowed then .ok ()
  else .error (.at .scanner (what ++ " are not allowed here") s.mark)

def fetchBlockEntry (s : Scan) : Except Fault Scan := do
  s.checkEntry "sequence entries"
  let s := if s.inFlow then s else s.openBlock .blockSequenceStart
  let s ← s.dropKey
  pure ({ s with keyAllowed := true }.pushSign .blockEntry 1)

def fetchKey (s : Scan) : Except Fault Scan := do
  s.checkEntry "mapping keys"
  let s := if s.inFlow then s else s.openBlock .blockMappingStart
  let s ← s.dropKey
  pure ({ s with keyAllowed := !s.inFlow }.pushSign .key 1)

/-- Puts tokens into the queue before the token with the given number. -/
def insertBefore (s : Scan) (number : Nat) (ts : List Token) : Scan :=
  let k := number - s.taken
  { s with queue := s.queue.take k ++ ts ++ s.queue.drop k }

/-- Makes the token with which `k` started a key. -/
def makeKey (s : Scan) (k : SimpleKey) : Scan :=
  let sign : Token := ⟨.key, k.mark, k.mark⟩
  match if s.inFlow then none else s.indentTo k.mark.column with
  | some s => s.insertBefore k.number [⟨.blockMappingStart, k.mark, k.mark⟩, sign]
  | none => s.insertBefore k.number [sign]

def fetchValue (s : Scan) : Except Fault Scan := do
  match s.key? with
  | some k => pure ({ s.forgetKey.makeKey k with keyAllowed := false }.pushSign .value 1)
  | none =>
    s.checkEntry "mapping values"
    let s := if s.inFlow then s else s.openBlock .blockMappingStart
    let s ← s.dropKey
    pure ({ s with keyAllowed := !s.inFlow }.pushSign .value 1)

def fetchAnchor (s : Scan) (what : String) (kind : String → TokenKind) : Except Fault Scan := do
  let s ← s.saveKey
  let (name, c) ← readAnchor what s.cursor
  pure { s.push ⟨kind name, s.mark, c.mark⟩ with keyAllowed := false, cursor := c }

def fetchTag (s : Scan) : Except Fault Scan := do
  let s ← s.saveKey
  let (tag, c) ← readTag s.cursor
  pure { s.push ⟨tag, s.mark, c.mark⟩ with keyAllowed := false, cursor := c }

def fetchBlock (s : Scan) (fold : Bool) : Except Fault Scan := do
  let s ← s.dropKey
  let (text, c) ← readBlock fold s.indent s.cursor
  pure { s.push ⟨.scalar text false, s.mark, c.mark⟩ with keyAllowed := true, cursor := c }

def fetchQuoted (s : Scan) (q : Quote) : Except Fault Scan := do
  let s ← s.saveKey
  let (text, c) ← readQuoted q s.cursor
  pure { s.push ⟨.scalar text false, s.mark, c.mark⟩ with keyAllowed := false, cursor := c }

def fetchPlain (s : Scan) : Except Fault Scan := do
  let s ← s.saveKey
  match readPlain s.inFlow (s.indent + 1) (s.cursor.rest.length + 1) s.cursor with
  | some p =>
    pure { s.push ⟨.scalar p.text true, s.mark, p.cursor.mark⟩ with
      keyAllowed := p.broke, cursor := p.cursor }
  | none => pure { s.push ⟨.scalar [] true, s.mark, s.mark⟩ with keyAllowed := false }

/-- Whether a sign of one character is at the cursor: white space follows it, or flow collections
are open. -/
def atSign (s : Scan) : Bool :=
  s.inFlow || isBlankOrEnd (s.cursor.peekAt 1)

/-- Whether a plain scalar may start with the character at the cursor. -/
def startsPlain (s : Scan) : Bool :=
  let c := s.cursor.peek
  let isIndicator := "-?:,[]\x7b\x7d#&*!|>'\"%@".toList.contains c || c.toNat == 0x60
  !(isBlankOrEnd c || isIndicator) ||
    (!isBlankOrEnd (s.cursor.peekAt 1) && (c == '-' || (!s.inFlow && (c == '?' || c == ':'))))

/-- Skips white space, comments and line breaks; a new line allows a key. -/
def skipToToken : (fuel : Nat) → Scan → Scan
  | 0, s => s
  | fuel + 1, s =>
    let c := (s.cursor.skipWhile (· == ' ')).skipComment
    if isBreak c.peek then
      skipToToken fuel { s with cursor := c.lineBreak.2, keyAllowed := s.keyAllowed || !s.inFlow }
    else { s with cursor := c }

/-- Skips a byte order mark at the start of the text. -/
def skipOrderMark (s : Scan) : Scan :=
  if s.mark.index == 0 && s.cursor.peek.toNat == 0xFEFF then { s with cursor := s.cursor.next }
  else s

/-- Reads the token at the cursor. -/
def fetchHere (s : Scan) : Except Fault Scan :=
  let c := s.cursor
  let lineStart := c.mark.column == 0
  if c.peek.toNat == 0 then s.fetchStreamEnd
  else if c.peek == '%' && lineStart then s.fetchDirective
  else if lineStart && c.atMarker "---" then s.fetchDocumentSign .documentStart
  else if lineStart && c.atMarker "..." then s.fetchDocumentSign .documentEnd
  else if c.peek == '[' then s.fetchFlowStart .flowSequenceStart
  else if c.peek == '\x7b' then s.fetchFlowStart .flowMappingStart
  else if c.peek == ']' then s.fetchFlowEnd .flowSequenceEnd
  else if c.peek == '\x7d' then s.fetchFlowEnd .flowMappingEnd
  else if c.peek == ',' then s.fetchFlowEntry
  else if c.peek == '-' && isBlankOrEnd (c.peekAt 1) then s.fetchBlockEntry
  else if c.peek == '?' && s.atSign then s.fetchKey
  else if c.peek == ':' && s.atSign then s.fetchValue
  else if c.peek == '*' then s.fetchAnchor "alias" .aliasTo
  else if c.peek == '&' then s.fetchAnchor "anchor" .anchor
  else if c.peek == '!' then s.fetchTag
  else if c.peek == '|' && !s.inFlow then s.fetchBlock false
  else if c.peek == '>' && !s.inFlow then s.fetchBlock true
  else if c.peek == '\x27' then s.fetchQuoted .single
  else if c.peek == '"' then s.fetchQuoted .double
  else if s.startsPlain then s.fetchPlain
  else
    .error (.marked {
      stage := .scanner
      context? := some "while scanning for the next token"
      problem := "found character " ++ Text.quotedChar c.peek ++ " that cannot start any token"
      mark := s.mark })

/-- Reads one more token into the queue. -/
def fetch (s : Scan) : Except Fault Scan := do
  let s ← (skipToToken (s.cursor.rest.length + 1) s.skipOrderMark).dropStaleKeys
  (s.unwind s.mark.column).fetchHere

/-! ## The queue -/

/-- Whether a key may still be put before the first token of the queue. -/
def waits (s : Scan) : Bool :=
  s.queue.isEmpty || s.keys.any fun k => k.2.number == s.taken

/-- Reads tokens until the first one of the queue can leave it. -/
def fill : (fuel : Nat) → Scan → Except Fault Scan
  | 0, s => .ok s
  | fuel + 1, s =>
    if s.finished then .ok s
    else if s.queue.isEmpty then do fill fuel (← s.fetch)
    else do
      let s ← s.dropStaleKeys
      if s.waits then fill fuel (← s.fetch) else pure s

/-- Takes tokens off the queue until the end of the text or a fault. -/
def deliver : (fuel : Nat) → Scan → List Token × Option Fault
  | 0, _ => ([], none)
  | fuel + 1, s =>
    match s.fill (s.cursor.rest.length + 2) with
    | .error fault => ([], some fault)
    | .ok s =>
      match s.queue with
      | [] => ([], none)
      | t :: queue =>
        let (ts, fault?) := deliver fuel { s with queue, taken := s.taken + 1 }
        (t :: ts, fault?)

end Scan

/-- Whether YAML text may hold `c`. -/
def isAcceptable (c : Char) : Bool :=
  let n := c.toNat
  n == 0x09 || n == 0x0A || n == 0x0D || (0x20 ≤ n && n ≤ 0x7E) || n == 0x85 ||
    (0xA0 ≤ n && n ≤ 0xFFFD) || 0x10000 ≤ n

/-- The tokens of a text and the fault after them. Every token but the last takes a character or
closes or opens one of the collections, whose number the characters bound. -/
def tokens (text : List Char) : List Token × Option Fault :=
  match text.findIdx? (!isAcceptable ·) with
  | some position => ([], some (.character (text.getD position '\x00') position))
  | none => Scan.deliver (4 * text.length + 8) (.ofText text)

end Keyring.Yaml
