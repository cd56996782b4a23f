import Keyring.Text.Quoted
import Keyring.Yaml.Tag
import Keyring.Yaml.Token.Scan
/-!
# From tokens to nodes

The nodes of a document form a graph, since an alias stands for a node met before: entries of
sequences and mappings are numbers of nodes. `document` builds the graph of the only document of a
token sequence; it follows the grammar and takes tokens only as it needs them, so a fault of the
scan shows when the tokens before it are used up.
-/

namespace Keyring.Yaml

/-- What a node holds; the numbers are those of other nodes. -/
inductive Content where
  | scalar (text : List Char)
  | sequence (items : List Nat)
  | mapping (entries : List (Nat × Nat))
  deriving DecidableEq, Repr

/-- The entries of a mapping. -/
def Content.entries : Content → List (Nat × Nat)
  | mapping es => es
  | _ => []

structure Node where
  tag : String
  content : Content
  start : Mark
  deriving DecidableEq, Repr

/-- The nodes of a document, by number. -/
abbrev Graph := Array Node

/-- What a message calls a kind of node. -/
def Content.label : Content → String
  | scalar _ => "scalar"
  | sequence _ => "sequence"
  | mapping _ => "mapping"

/-- A document under construction. -/
structure Draft where
  /-- Tokens that have not been used. -/
  tokens : List Token
  /-- Why there are no more. -/
  fault? : Option Fault
  nodes : Graph
  anchors : List (String × Nat)
  /-- What the handles of tags stand for. -/
  handles : List (String × String)

/-- A step of construction. -/
abbrev Build := StateT Draft (Except Fault)

/-- The handles that need no directive. -/
def defaultHandles : List (String × String) := [("!", "!"), ("!!", coreTag "")]

namespace Build

/-- The next token. -/
def peek : Build Token := do
  let d ← get
  match d.tokens with
  | t :: _ => pure t
  | [] => throw (d.fault?.getD (.value .general ""))

/-- Uses the next token up. -/
def take : Build Unit :=
  modify fun d => { d with tokens := d.tokens.drop 1 }

/-- Adds a node. -/
def add (n : Node) : Build Nat := do
  let d ← get
  set { d with nodes := d.nodes.push n }
  pure d.nodes.size

/-- Fills a collection in. -/
def fill (i : Nat) (content : Content) : Build Unit :=
  modify fun d => { d with nodes := d.nodes.modify i fun n => { n with content } }

/-- Adds the empty scalar that stands where a node is left out. -/
def addEmpty (m : Mark) : Build Nat :=
  add ⟨nullTag, .scalar [], m⟩

/-- A fault at a token that is not what it should be. -/
def unexpected (context : String) (start : Mark) (expected : String) (t : Token) : Fault :=
  .inside .parser context start (expected ++ Text.quoted t.kind.label) t.start

/-! ## Properties -/

/-- The anchor and tag in front of a node. -/
structure Properties where
  anchor? : Option String := none
  tag? : Option String := none
  /-- Where the first of them starts. -/
  start? : Option Mark := none

/-- The tag that a handle and a suffix stand for. -/
def expandTag (start place : Mark) (handle? : Option String) (suffix : String) : Build String := do
  match handle? with
  | none => pure suffix
  | some handle =>
    match (← get).handles.lookup handle with
    | some uri => pure (uri ++ suffix)
    | none =>
      throw (.inside .parser "while parsing a node" start
        ("found undefined tag handle " ++ Text.quoted handle) place)

/-- Reads an anchor and a tag, in either order, either of which may be missing. -/
def properties : Build Properties := do
  let t ← peek
  match t.kind with
  | .anchor name =>
    take
    let u ← peek
    match u.kind with
    | .tag handle? suffix =>
      take
      pure ⟨some name, some (← expandTag t.start u.start handle? suffix), some t.start⟩
    | _ => pure ⟨some name, none, some t.start⟩
  | .tag handle? suffix =>
    take
    let u ← peek
    match u.kind with
    | .anchor name =>
      take
      pure ⟨some name, some (← expandTag t.start t.start handle? suffix), some t.start⟩
    | _ => pure ⟨none, some (← expandTag t.start t.start handle? suffix), some t.start⟩
  | _ => pure {}

/-- Adds a node with its properties; an anchor may be used once. -/
def addWith (p : Properties) (n : Node) : Build Nat := do
  match p.anchor? with
  | none => add n
  | some name =>
    let d ← get
    match d.anchors.lookup name with
    | some i =>
      throw (.inside .composer
        ("found duplicate anchor " ++ Text.quoted name ++ "; first occurrence")
        ((d.nodes[i]?.map (·.start)).getD n.start) "second occurrence" n.start)
    | none =>
      let i ← add n
      modify fun d => { d with anchors := (name, i) :: d.anchors }
      pure i

/-- The tag of a scalar: the one it has, else one from its text if it is plain. -/
def scalarTag (tag? : Option String) (text : List Char) (plain : Bool) : String :=
  match tag? with
  | none => if plain then resolve metadataTags text else strTag
  | some tag => if tag = "!" then resolve metadataTags text else tag

/-- The tag of a collection: the one it has, else the usual one. -/
def collectionTag (tag? : Option String) (usual : String) : String :=
  match tag? with
  | none => usual
  | some tag => if tag = "!" then usual else tag

/-! ## Nodes -/

mutual

/-- Builds a node. Block collections are allowed if `block` holds, and a sequence that is not
indented further than the mapping around it if `indentless` does. -/
def node : (fuel : Nat) → (block indentless : Bool) → Build Nat
  | 0, _, _ => throw (.value .general "")
  | fuel + 1, block, indentless => do
    let t ← peek
    if let .aliasTo name := t.kind then
      take
      match (← get).anchors.lookup name with
      | some i => pure i
      | none => throw (.at .composer ("found undefined alias " ++ Text.quoted name) t.start)
    else
      let p ← properties
      let t ← peek
      let start := p.start?.getD t.start
      let openSequence : Build Nat :=
        addWith p ⟨collectionTag p.tag? seqTag, .sequence [], start⟩
      let openMapping : Build Nat :=
        addWith p ⟨collectionTag p.tag? mapTag, .mapping [], start⟩
      match t.kind with
      | .scalar text plain =>
        take
        addWith p ⟨scalarTag p.tag? text plain, .scalar text, start⟩
      | .flowSequenceStart =>
        let i ← openSequence
        take
        fill i (.sequence (← flowSequence fuel t.start true))
        pure i
      | .flowMappingStart =>
        let i ← openMapping
        take
        fill i (.mapping (← flowMapping fuel t.start true))
        pure i
      | kind =>
        if indentless && kind == .blockEntry then
          let i ← openSequence
          fill i (.sequence (← indentlessSequence fuel))
          pure i
        else if block && kind == .blockSequenceStart then
          let i ← openSequence
          take
          fill i (.sequence (← blockSequence fuel t.start))
          pure i
        else if block && kind == .blockMappingStart then
          let i ← openMapping
          take
          fill i (.mapping (← blockMapping fuel t.start))
          pure i
        else if p.start?.isSome then
          addWith p ⟨scalarTag p.tag? [] true, .scalar [], start⟩
        else
          throw (unexpected ("while parsing a " ++ (if block then "block" else "flow") ++ " node")
            start "expected the node content, but found " t)

/-- Builds the entries of a block sequence, up to its end. -/
def blockSequence : (fuel : Nat) → (start : Mark) → Build (List Nat)
  | 0, _ => throw (.value .general "")
  | fuel + 1, start => do
    let t ← peek
    match t.kind with
    | .blockEntry =>
      take
      let i ←
        match (← peek).kind with
        | .blockEntry | .blockEnd => addEmpty t.finish
        | _ => node fuel true false
      pure (i :: (← blockSequence fuel start))
    | .blockEnd =>
      take
      pure []
    | _ =>
      throw (unexpected "while parsing a block collection" start
        "expected <block end>, but found " t)

/-- Builds the entries of a sequence that is not indented further than the mapping around it. -/
def indentlessSequence : (fuel : Nat) → Build (List Nat)
  | 0 => throw (.value .general "")
  | fuel + 1 => do
    let t ← peek
    match t.kind with
    | .blockEntry =>
      take
      let i ←
        match (← peek).kind with
        | .blockEntry | .key | .value | .blockEnd => addEmpty t.finish
        | _ => node fuel true false
      pure (i :: (← indentlessSequence fuel))
    | _ => pure []

/-- Builds the entries of a block mapping, up to its end. -/
def blockMapping : (fuel : Nat) → (start : Mark) → Build (List (Nat × Nat))
  | 0, _ => throw (.value .general "")
  | fuel + 1, start => do
    let t ← peek
    match t.kind with
    | .key =>
      take
      let key ← blockPart fuel t.finish
      let u ← peek
      let value ←
        match u.kind with
        | .value => do
          take
          blockPart fuel u.finish
        | _ => addEmpty u.start
      pure ((key, value) :: (← blockMapping fuel start))
    | .blockEnd =>
      take
      pure []
    | _ =>
      throw (unexpected "while parsing a block mapping" start "expected <block end>, but found " t)

/-- Builds the key or value after a sign that ends at `finish`. -/
def blockPart : (fuel : Nat) → (finish : Mark) → Build Nat
  | 0, _ => throw (.value .general "")
  | fuel + 1, finish => do
    match (← peek).kind with
    | .key | .value | .blockEnd => addEmpty finish
    | _ => node fuel true true

/-- Builds the entries of a flow sequence, up to its bracket. -/
def flowSequence : (fuel : Nat) → (start : Mark) → (first : Bool) → Build (List Nat)
  | 0, _, _ => throw (.value .general "")
  | fuel + 1, start, first => do
    let t ← peek
    if t.kind == .flowSequenceEnd then
      take
      pure []
    else
      unless first do
        if t.kind == .flowEntry then take
        else
          throw (unexpected "while parsing a flow sequence" start "expected ',' or ']', but got " t)
      let t ← peek
      match t.kind with
      | .flowSequenceEnd =>
        take
        pure []
      | .key =>
        let i ← add ⟨mapTag, .mapping [], t.start⟩
        take
        let key ← flowPart fuel .flowSequenceEnd true t.finish
        let value ← flowValue fuel .flowSequenceEnd
        fill i (.mapping [(key, value)])
        pure (i :: (← flowSequence fuel start false))
      | _ =>
        let i ← node fuel false false
        pure (i :: (← flowSequence fuel start false))

/-- Builds the entries of a flow mapping, up to its brace. -/
def flowMapping : (fuel : Nat) → (start : Mark) → (first : Bool) → Build (List (Nat × Nat))
  | 0, _, _ => throw (.value .general "")
  | fuel + 1, start, first => do
    let t ← peek
    if t.kind == .flowMappingEnd then
      take
      pure []
    else
      unless first do
        if t.kind == .flowEntry then take
        else
          throw (unexpected "while parsing a flow mapping" start
            "expected ',' or '\x7d', but got " t)
      let t ← peek
      match t.kind with
      | .flowMappingEnd =>
        take
        pure []
      | .key =>
        take
        let key ← flowPart fuel .flowMappingEnd true t.finish
        let value ← flowValue fuel .flowMappingEnd
        pure ((key, value) :: (← flowMapping fuel start false))
      | _ =>
        let key ← node fuel false false
        let value ← addEmpty (← peek).start
        pure ((key, value) :: (← flowMapping fuel start false))

/-- Builds the key or value after a sign that ends at `finish`; it is empty where the entry or the
collection ends, and a key is empty before a value. -/
def flowPart : (fuel : Nat) → (closing : TokenKind) → (isKey : Bool) → (finish : Mark) → Build Nat
  | 0, _, _, _ => throw (.value .general "")
  | fuel + 1, closing, isKey, finish => do
    let kind := (← peek).kind
    if kind == closing || kind == .flowEntry || (isKey && kind == .value) then addEmpty finish
    else node fuel false false

/-- Builds the value of an entry that may end without one. -/
def flowValue : (fuel : Nat) → (closing : TokenKind) → Build Nat
  | 0, _ => throw (.value .general "")
  | fuel + 1, closing => do
    let t ← peek
    match t.kind with
    | .value =>
      take
      flowPart fuel closing false t.finish
    | _ => addEmpty t.start

end

/-! ## Documents -/

/-- Reads directives; `version` tells whether one for the version was read. -/
def directives : (fuel : Nat) → (version : Bool) → Build Unit
  | 0, _ => pure ()
  | fuel + 1, version => do
    let t ← peek
    match t.kind with
    | .directive (.version major _) =>
      take
      if version then throw (.at .parser "found duplicate YAML directive" t.start)
      if major ≠ 1 then
        throw (.at .parser "found incompatible YAML document (version 1.* is required)" t.start)
      directives fuel true
    | .directive (.tag handle uri) =>
      take
      if ((← get).handles.lookup handle).isSome then
        throw (.at .parser ("duplicate tag handle " ++ Text.quoted handle) t.start)
      modify fun d => { d with handles := (handle, uri) :: d.handles }
      directives fuel version
    | .directive .other =>
      take
      directives fuel version
    | _ => pure ()

/-- Reads the directives and the sign that start a document. -/
def documentStart : Build Unit := do
  modify fun d => { d with handles := [] }
  directives ((← get).tokens.length + 1) false
  modify fun d => { d with handles := d.handles ++ defaultHandles }
  let t ← peek
  if t.kind == .documentStart then take
  else
    throw (.at .parser
      ("expected '<document start>', but found " ++ Text.quoted t.kind.label) t.start)

/-- Skips the signs that end documents. -/
def skipDocumentEnds : (fuel : Nat) → Build Unit
  | 0 => pure ()
  | fuel + 1 => do
    if (← peek).kind == .documentEnd then
      take
      skipDocumentEnds fuel

/-- Builds the root of a document after its start. -/
def documentRoot (fuel : Nat) : Build Nat := do
  let t ← peek
  match t.kind with
  | .directive _ | .documentStart | .documentEnd | .streamEnd => addEmpty t.start
  | _ => node fuel true false

/-- Builds the only document; there may be none. -/
def document (fuel : Nat) : Build (Option Nat) := do
  let t ← peek
  match t.kind with
  | .streamEnd => pure none
  | kind =>
    let root ←
      match kind with
      | .directive _ | .documentStart => do
        documentStart
        documentRoot fuel
      | _ => node fuel true false
    skipDocumentEnds fuel
    let t ← peek
    if t.kind == .streamEnd then pure (some root)
    else
      documentStart
      let start := (((← get).nodes[root]?).map (·.start)).getD t.start
      throw (.inside .composer "expected a single document in the stream" start
        "but found another document" t.start)

end Build

/-- The graph of the only document of a text and the number of its root. -/
def compose (text : List Char) : Except Fault (Graph × Option Nat) := do
  let (ts, fault?) := tokens text
  let d : Draft := ⟨ts, fault?, #[], [], defaultHandles⟩
  let (root?, d) ← (Build.document (4 * ts.length + 4)).run d
  pure (d.nodes, root?)

end Keyring.Yaml
