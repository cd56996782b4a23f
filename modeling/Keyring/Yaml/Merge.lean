import Keyring.Yaml.Node
/-!
# Merging mappings

An entry whose key is tagged as a merge takes the entries of another mapping, or of several, in
front of those of its own mapping. `flatten` carries the merges of a mapping out, those of the
merged mappings first. It works on the graph, so a mapping that several others merge is flattened
once. A key that is tagged as a value becomes a text.

Each merge that is carried out is removed first and none is ever added, so the number of merges in
the graph bounds the recursion, also through mappings that merge themselves.
-/

namespace Keyring.Yaml

namespace Graph

/-- The tag of a node. -/
def tag (g : Graph) (i : Nat) : String :=
  (g[i]?.map (·.tag)).getD ""

/-- The entries of a mapping. -/
def entries (g : Graph) (i : Nat) : List (Nat × Nat) :=
  (g[i]?.map (·.content.entries)).getD []

/-- Replaces the entries of a mapping. -/
def setEntries (g : Graph) (i : Nat) (es : List (Nat × Nat)) : Graph :=
  g.modify i fun n => { n with content := .mapping es }

/-- How many entries of the graph are merges. -/
def mergeCount (g : Graph) : Nat :=
  (g.toList.flatMap fun n => n.content.entries).countP fun e => g.tag e.1 == mergeTag

/-- The first merge of a mapping and its other entries. -/
def firstMerge? (g : Graph) (i : Nat) : Option ((Nat × Nat) × List (Nat × Nat)) :=
  let es := g.entries i
  (es.findIdx? fun e => g.tag e.1 == mergeTag).bind fun k =>
    es[k]?.map fun e => (e, es.eraseIdx k)

/-- Makes texts of the keys of a mapping that are tagged as values. -/
def plainKeys (g : Graph) (i : Nat) : Graph :=
  (g.entries i).foldl
    (fun g e => if g.tag e.1 == valueTag then g.modify e.1 fun n => { n with tag := strTag } else g)
    g

/-- A fault of the mapping `i` at the node `n`. -/
def mergeFault (g : Graph) (i : Nat) (wanted : String) (n : Node) : Fault :=
  .inside .constructor "while constructing a mapping" ((g[i]?.map (·.start)).getD n.start)
    ("expected " ++ wanted ++ " for merging, but found " ++ n.content.label) n.start

/-- Whether a node is a mapping. -/
def isMapping (n : Node) : Bool :=
  match n.content with
  | .mapping _ => true
  | _ => false

/-- Carries out the merges of mapping `i`; `merged` are the entries that have been taken. -/
def flattenWith : (fuel : Nat) → Graph → (i : Nat) → (merged : List (Nat × Nat)) →
    Except Fault Graph
  | 0, g, _, _ => .ok g
  | fuel + 1, g, i, merged =>
    match g.firstMerge? i with
    | none =>
      let g := g.plainKeys i
      .ok (g.setEntries i (merged ++ g.entries i))
    | some ((_, v), rest) =>
      let g := g.setEntries i rest
      match g[v]? with
      | none => .ok g
      | some n =>
        match n.content with
        | .mapping _ => do
          let g ← flattenWith fuel g v []
          flattenWith fuel g i (merged ++ g.entries v)
        | .sequence items => do
          let (g, taken) ← items.foldlM
            (fun (g, taken) j => do
              match g[j]? with
              | none => pure (g, taken)
              | some m =>
                if isMapping m then
                  let g ← flattenWith fuel g j []
                  pure (g, g.entries j :: taken)
                else throw (g.mergeFault i "a mapping" m))
            (g, ([] : List (List (Nat × Nat))))
          flattenWith fuel g i (merged ++ taken.flatten)
        | .scalar _ => .error (g.mergeFault i "a mapping or list of mappings" n)

/-- Carries out the merges of mapping `i`. -/
def flatten (g : Graph) (i : Nat) : Except Fault Graph :=
  flattenWith (g.mergeCount + 1) g i []

end Graph

end Keyring.Yaml
