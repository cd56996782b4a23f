import Keyring.Yaml.Merge
import Keyring.Yaml.Scalar
/-!
# From nodes to values

Each node of the graph gives one value, so an alias shares the value of its anchor and a
collection may hold itself. Collections are boxes: a box is made empty and filled later, in the
order in which the boxes were made, so that faults of outer collections come before those of inner
ones. `Document.read` does this for a text; `Document.get?` looks a key of the topmost mapping up
and unfolds its value to a `Datum`.
-/

namespace Keyring.Yaml

/-- A value: a scalar, or the number of a box. -/
inductive Value where
  /-- `identity?` tells undefined numbers apart: the node that the number was read from, if not
  from the common way to write it. -/
  | scalar (d : Datum) (identity? : Option Nat)
  | box (i : Nat)

/-- A key of a mapping, which is always a scalar. -/
structure Key where
  datum : Datum
  identity? : Option Nat

/-- A collection. -/
inductive Box where
  | list (items : List Value)
  | pairs (items : List (Value × Value))
  | mapping (entries : List (Key × Value))
  | set (items : List Key)

/-! ## Equality of keys -/

namespace Key

/-- Whether `m * 2 ^ q` and `n * 2 ^ r` are equal. -/
def sameBinary (m : Int) (q : Int) (n : Int) (r : Int) : Bool :=
  let low := min q r
  m * Nat.pow 2 (q - low).toNat == n * Nat.pow 2 (r - low).toNat

/-- A number as `m * 2 ^ q`. -/
def binary? : Datum → Option (Int × Int)
  | .bool b => some (if b then 1 else 0, 0)
  | .int n => some (n, 0)
  | .float x =>
    match Decimal.Parts.ofFloat x with
    | .finite negative b => some (if negative then -b.m else b.m, b.q)
    | _ => none
  | _ => none

/-- Whether two keys are one. Numbers are compared by value, whatever their kind, and times by the
instant; an undefined number equals itself only. -/
def same (k l : Key) : Bool :=
  match binary? k.datum, binary? l.datum with
  | some (m, q), some (n, r) => sameBinary m q n r
  | none, none =>
    match k.datum, l.datum with
    | .null, .null => true
    | .str s, .str t => s == t
    | .bytes s, .bytes t => s == t
    | .date d, .date e => d == e
    | .dateTime t, .dateTime u => t.same u
    | .float x, .float y =>
      match Decimal.Parts.ofFloat x, Decimal.Parts.ofFloat y with
      | .infinite a, .infinite b => a == b
      | .notANumber, .notANumber => k.identity? == l.identity?
      | _, _ => false
    | _, _ => false
  | _, _ => false

/-- Adds an entry, or gives the key that is there a new value. -/
def insert (k : Key) (v : Value) : List (Key × Value) → List (Key × Value)
  | [] => [(k, v)]
  | (l, w) :: rest => if k.same l then (l, v) :: rest else (l, w) :: insert k v rest

end Key

/-! ## Making values -/

/-- How a box is filled. -/
inductive Form where
  | list
  | omap
  | pairs
  | set
  | mapping
  deriving DecidableEq, Repr

/-- The form of the collections with a given tag. -/
def Form.ofTag? (tag : String) : Option Form :=
  if tag = seqTag then some .list
  else if tag = mapTag then some .mapping
  else if tag = omapTag then some .omap
  else if tag = pairsTag then some .pairs
  else if tag = setTag then some .set
  else none

/-- An empty box. -/
def Form.empty : Form → Box
  | .list => .list []
  | .omap | .pairs => .pairs []
  | .set => .set []
  | .mapping => .mapping []

/-- A box that waits to be filled from a node. -/
structure Task where
  box : Nat
  node : Nat
  form : Form

/-- Values under construction. -/
structure Maker where
  graph : Graph
  /-- The values of the nodes that have one. -/
  made : Array (Option Value)
  boxes : Array Box
  /-- Boxes to be filled, the last one first. -/
  waiting : List Task

abbrev Make := StateT Maker (Except Fault)

namespace Make

/-- A complaint about a node that is not of the kind its tag needs. -/
def wrongKind (wanted : String) (n : Node) : Fault :=
  .at .constructor ("expected a " ++ wanted ++ " node, but found " ++ n.content.label) n.start

/-- The text of a scalar. A mapping with a key that is tagged as a value has the text of that
entry. With more fuel than there are nodes, the fuel runs out only where such entries lead back to a
mapping that was passed. -/
def scalarText (g : Graph) : (fuel : Nat) → Node → Except Fault (List Char)
  | 0, _ => .error .endless
  | fuel + 1, n =>
    match n.content with
    | .scalar text => .ok text
    | .sequence _ => .error (wrongKind "scalar" n)
    | .mapping entries =>
      match (entries.find? fun e => g.tag e.1 == valueTag).bind fun e => g[e.2]? with
      | some m => scalarText g fuel m
      | none => .error (wrongKind "scalar" n)

/-- The value of a scalar with the given tag. -/
def scalarValue (g : Graph) (i : Nat) (n : Node) : Except Fault Value := do
  let text := scalarText g (g.size + 1) n
  let plain (d : Datum) : Value := .scalar d none
  if n.tag = strTag then return plain (.str (String.ofList (← text)))
  else if n.tag = nullTag then
    let _ ← text
    return plain .null
  else if n.tag = boolTag then return plain (.bool (← Scalar.bool (← text)))
  else if n.tag = intTag then return plain (.int (← Scalar.whole (← text)))
  else if n.tag = floatTag then
    let text ← text
    let x ← Scalar.float text
    return .scalar (.float x)
      (if x.toBits = Scalar.undefinedNumber.toBits && text.contains '.' then none else some i)
  else if n.tag = binaryTag then return plain (.bytes (← Scalar.binary n.start (← text)))
  else if n.tag = timestampTag then
    let text ← text
    match n.content with
    | .scalar _ => return plain (← Scalar.timestamp text)
    | _ => throw (.value .type "expected string or bytes-like object, got 'list'")
  else
    throw (.at .constructor
      ("could not determine a constructor for the tag " ++ Text.quoted n.tag) n.start)

/-- The value of a node; a collection is put off. -/
def value (i : Nat) : Make Value := do
  let m ← get
  match m.made[i]?.join, m.graph[i]? with
  | some v, _ => pure v
  | none, none => throw (.value .general "")
  | none, some n =>
    match Form.ofTag? n.tag with
    | none =>
      let v ← scalarValue m.graph i n
      modify fun m => { m with made := m.made.setIfInBounds i (some v) }
      pure v
    | some form =>
      let v := Value.box m.boxes.size
      modify fun m =>
        { m with
          made := m.made.setIfInBounds i (some v)
          boxes := m.boxes.push form.empty
          waiting := ⟨m.boxes.size, i, form⟩ :: m.waiting }
      pure v

/-- Adds the entries of a mapping, the key of each before its value. -/
def addEntries (start : Mark) :
    List (Nat × Nat) → List (Key × Value) → Make (List (Key × Value))
  | [], made => pure made
  | (k, v) :: rest, made => do
    match ← value k with
    | .scalar d identity? =>
      let x ← value v
      addEntries start rest (Key.insert ⟨d, identity?⟩ x made)
    | .box _ =>
      let g := (← get).graph
      throw (.inside .constructor "while constructing a mapping" start "found unhashable key"
        ((g[k]?.map (·.start)).getD start))

/-- The entries of the mapping `i`, its merges carried out. -/
def mappingEntries (i : Nat) (n : Node) : Make (List (Key × Value)) := do
  match n.content with
  | .mapping _ =>
    let g ← (← get).graph.flatten i
    modify fun m => { m with graph := g }
    addEntries n.start (g.entries i) []
  | _ => throw (wrongKind "mapping" n)

/-- The pair that a mapping of one entry stands for. -/
def pair (context : String) (start : Mark) (i : Nat) : Make (Value × Value) := do
  match (← get).graph[i]? with
  | none => throw (.value .general "")
  | some n =>
    match n.content with
    | .mapping [(k, v)] => pure (← value k, ← value v)
    | .mapping entries =>
      throw (.inside .constructor context start
        ("expected a single mapping item, but found " ++ toString entries.length ++ " items")
        n.start)
    | _ =>
      throw (.inside .constructor context start
        ("expected a mapping of length 1, but found " ++ n.content.label) n.start)

/-- The pairs of a sequence of mappings of one entry each. -/
def pairs (context : String) (n : Node) : Make Box := do
  match n.content with
  | .sequence items => return .pairs (← items.mapM (pair context n.start))
  | _ =>
    throw (.inside .constructor context n.start
      ("expected a sequence, but found " ++ n.content.label) n.start)

/-- What a box holds. -/
def contents (t : Task) (n : Node) : Make Box := do
  match t.form with
  | .list =>
    match n.content with
    | .sequence items => return .list (← items.mapM value)
    | _ => throw (wrongKind "sequence" n)
  | .mapping => return .mapping (← mappingEntries t.node n)
  | .set => return .set ((← mappingEntries t.node n).map (·.1))
  | .omap => pairs "while constructing an ordered map" n
  | .pairs => pairs "while constructing pairs" n

/-- Fills the boxes that wait, in the order in which they were made, and those that are made
meanwhile after them. -/
def fillAll : (fuel : Nat) → List Task → Make Unit
  | 0, _ => pure ()
  | fuel + 1, tasks => do
    match tasks with
    | t :: rest =>
      if let some n := (← get).graph[t.node]? then
        let box ← contents t n
        modify fun m => { m with boxes := m.boxes.setIfInBounds t.box box }
      fillAll fuel rest
    | [] =>
      let waiting := (← get).waiting.reverse
      if waiting.isEmpty then pure ()
      else
        modify fun m => { m with waiting := [] }
        fillAll fuel waiting

end Make

/-! ## Documents -/

/-- The values of a document. -/
structure Document where
  boxes : Array Box
  /-- The topmost value. -/
  top : Value

namespace Document

/-- Builds the values of a graph. -/
def ofGraph (g : Graph) : Option Nat → Except Fault Document
  | none => .ok ⟨#[], .scalar .null none⟩
  | some root => do
    let maker : Maker := ⟨g, Array.replicate g.size none, #[], []⟩
    let (top, maker) ← (do
      let top ← Make.value root
      Make.fillAll (2 * g.size + 2) []
      pure top : Make Value).run maker
    pure ⟨maker.boxes, top⟩

/-- Reads the only document of a text. -/
def read (text : List Char) : Except Fault Document := do
  let (g, root?) ← compose text
  ofGraph g root?

/-- Unfolds a value; `passed` are the boxes around it. -/
def unfold (boxes : Array Box) : (fuel : Nat) → (passed : List Nat) → Value → Datum
  | _, _, .scalar d _ => d
  | 0, _, .box _ => .again .list
  | fuel + 1, passed, .box i =>
    let inner := unfold boxes fuel (i :: passed)
    let again := passed.contains i
    match boxes[i]? with
    | none => .null
    | some (.list items) => if again then .again .list else .list (items.map inner)
    | some (.pairs items) =>
      if again then .again .list
      else .list (items.map fun (a, b) => .tuple [inner a, inner b])
    | some (.mapping entries) =>
      if again then .again .mapping else .mapping (entries.map fun (k, v) => (k.datum, inner v))
    | some (.set items) => .set (items.map (·.datum))

/-- The value of a number of a box or scalar. -/
def datum (d : Document) (v : Value) : Datum :=
  unfold d.boxes (d.boxes.size + 1) [] v

/-- The entries of the topmost mapping, if it is one. -/
def entries? (d : Document) : Option (List (Key × Value)) :=
  match d.top with
  | .scalar _ _ => none
  | .box i =>
    match d.boxes[i]? with
    | some (.mapping entries) => some entries
    | _ => none

/-- The value of a key of the topmost mapping. -/
def get? (d : Document) (key : String) : Option Datum :=
  (d.entries?.bind fun entries =>
    entries.find? fun e =>
      match e.1.datum with
      | .str s => s == key
      | _ => false).map fun e => d.datum e.2

end Document

end Keyring.Yaml
