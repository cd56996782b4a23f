import Keyring.Proofs.Outcome
import Keyring.Proofs.Yaml.Lines
import Keyring.Yaml.Node
import Mathlib.Data.List.Basic
import Mathlib.Data.List.Forall2
/-!
# The graph of simple lines

Simple lines whose keys and values are texts compose to one mapping of texts: an entry a line, in the
order of the lines (`compose_join`).
-/

namespace Keyring.Yaml

open Outcome

/-! ## Texts of a graph -/

/-- Node `i` of the graph is the text `w`. -/
def IsText (g : Graph) (i : Nat) (w : List Char) : Prop :=
  ∃ n, g[i]? = some n ∧ n.tag = strTag ∧ n.content = .scalar w

/-- The entry `e` of a mapping is that of the line `l`. -/
def IsEntry (g : Graph) (l : Line) (e : Nat × Nat) : Prop :=
  IsText g e.1 l.key ∧ IsText g e.2 l.value

/-- The nodes of `g` are nodes of `g'`. -/
def Extends (g g' : Graph) : Prop :=
  ∀ (i : Nat) (n : Node), g[i]? = some n → g'[i]? = some n

theorem extends_push (g : Graph) (n : Node) : Extends g (g.push n) := by
  intro i m hm
  have hi : i < g.size := (Array.getElem?_eq_some_iff.1 hm).1
  rw [Array.getElem?_push_lt hi, ← hm, Array.getElem?_eq_getElem hi]

theorem Extends.trans {g g' g'' : Graph} (h : Extends g g') (h' : Extends g' g'') : Extends g g'' :=
  fun i n hn => h' i n (h i n hn)

theorem IsText.extends {g g' : Graph} {i : Nat} {w : List Char} (h : IsText g i w)
    (he : Extends g g') : IsText g' i w := by
  obtain ⟨n, hn, htag⟩ := h
  exact ⟨n, he i n hn, htag⟩

theorem IsEntry.extends {g g' : Graph} {l : Line} {e : Nat × Nat} (h : IsEntry g l e)
    (he : Extends g g') : IsEntry g' l e :=
  ⟨h.1.extends he, h.2.extends he⟩

theorem isText_push (g : Graph) {n : Node} {w : List Char} (ht : n.tag = strTag)
    (hc : n.content = .scalar w) : IsText (g.push n) g.size w :=
  ⟨n, by simp, ht, hc⟩

/-- A mapping that is filled in is none of the texts. -/
theorem IsText.fill {g : Graph} {i j : Nat} {w : List Char} {r : Node} (h : IsText g i w)
    (hr : g[j]? = some r) (hc : r.content = .mapping []) (es : List (Nat × Nat)) :
    IsText (g.modify j fun n => { n with content := .mapping es }) i w := by
  obtain ⟨n, hn, htag, hcontent⟩ := h
  have hne : j ≠ i := by
    rintro rfl
    obtain rfl := Option.some.inj (hr.symm.trans hn)
    rw [hc] at hcontent
    cases hcontent
  exact ⟨n, by rw [Array.getElem?_modify, if_neg hne, hn], htag, hcontent⟩

/-! ## Steps -/

/-- The key of a simple line is a text, and so is the value. -/
structure Line.IsTextual (l : Line) : Prop extends l.IsSimple where
  key_text : resolve metadataTags l.key = strTag
  value_text : l.style = .plain → resolve metadataTags l.value = strTag

namespace Build

variable {ts : List Token} {fault? : Option Fault} {g : Graph} {anchors : List (String × Nat)}
  {handles : List (String × String)} {t : Token}

theorem run_peek : peek.run ⟨t :: ts, fault?, g, anchors, handles⟩ =
    .ok (t, ⟨t :: ts, fault?, g, anchors, handles⟩) := rfl

theorem run_take : take.run ⟨t :: ts, fault?, g, anchors, handles⟩ =
    .ok ((), ⟨ts, fault?, g, anchors, handles⟩) := rfl

theorem node_scalar {w : List Char} {plain : Bool} (ht : t.kind = .scalar w plain)
    (htag : scalarTag none w plain = strTag) (fuel : Nat) (block indentless : Bool) :
    (node (fuel + 1) block indentless).run ⟨t :: ts, fault?, g, anchors, handles⟩ =
      .ok (g.size, ⟨ts, fault?, g.push ⟨strTag, .scalar w, t.start⟩, anchors, handles⟩) := by
  obtain ⟨kind, start, finish⟩ := t
  obtain rfl : kind = .scalar w plain := ht
  rw [node, ← htag]
  rfl

theorem blockPart_scalar {w : List Char} {plain : Bool} (ht : t.kind = .scalar w plain)
    (htag : scalarTag none w plain = strTag) (fuel : Nat) (finish : Mark) :
    (blockPart (fuel + 2) finish).run ⟨t :: ts, fault?, g, anchors, handles⟩ =
      .ok (g.size, ⟨ts, fault?, g.push ⟨strTag, .scalar w, t.start⟩, anchors, handles⟩) := by
  rw [← node_scalar ht htag fuel true true]
  obtain ⟨kind, start, finish'⟩ := t
  obtain rfl : kind = .scalar w plain := ht
  rw [blockPart]
  rfl

/-! ## Mappings -/

theorem blockMapping_end (ht : t.kind = .blockEnd) (fuel : Nat) (start : Mark) :
    (blockMapping (fuel + 1) start).run ⟨t :: ts, fault?, g, anchors, handles⟩ =
      .ok ([], ⟨ts, fault?, g, anchors, handles⟩) := by
  obtain ⟨kind, start, finish⟩ := t
  obtain rfl : kind = .blockEnd := ht
  rw [blockMapping]
  rfl

/-- One entry is composed, and the others after it. -/
theorem run_blockMapping_entry {l : Line} {k a v b : Token} {fuel : Nat} {start : Mark}
    (hl : l.IsTextual) (hkinds : [k, a, v, b].map Token.kind = l.kinds) :
    (blockMapping (fuel + 3) start).run ⟨k :: a :: v :: b :: ts, fault?, g, anchors, handles⟩ =
      (do pure ((g.size, g.size + 1) :: (← blockMapping (fuel + 2) start))).run ⟨ts, fault?,
        (g.push ⟨strTag, .scalar l.key, a.start⟩).push ⟨strTag, .scalar l.value, b.start⟩, anchors,
          handles⟩ := by
  simp only [List.map_cons, List.map_nil, Line.kinds, List.cons.injEq, and_true] at hkinds
  obtain ⟨hk, ha, hv, hb⟩ := hkinds
  have hkey : scalarTag none l.key true = strTag := hl.key_text
  have hvalue : scalarTag none l.value l.style.isPlain = strTag := by
    have htext := hl.value_text
    cases hstyle : l.style with
    | plain => exact htext hstyle
    | quoted q => rfl
  rw [blockMapping, run_bind_ok run_peek]
  simp only [hk]
  rw [run_bind_ok run_take, run_bind_ok (blockPart_scalar ha hkey fuel k.finish),
    run_bind_ok run_peek]
  simp only [hv]
  rw [run_bind_ok run_take, run_bind_ok (blockPart_scalar hb hvalue fuel v.finish), Array.size_push]

theorem blockMapping_entry {l : Line} {k a v b : Token} {es : List (Nat × Nat)} {d : Draft}
    {fuel : Nat} {start : Mark} (hl : l.IsTextual)
    (hkinds : [k, a, v, b].map Token.kind = l.kinds)
    (hrest : (blockMapping (fuel + 2) start).run ⟨ts, fault?,
      (g.push ⟨strTag, .scalar l.key, a.start⟩).push ⟨strTag, .scalar l.value, b.start⟩, anchors,
        handles⟩ = .ok (es, d)) :
    (blockMapping (fuel + 3) start).run ⟨k :: a :: v :: b :: ts, fault?, g, anchors, handles⟩ =
      .ok ((g.size, g.size + 1) :: es, d) := by
  rw [run_blockMapping_entry hl hkinds, run_bind_ok hrest]
  rfl

/-- The tokens of a line are four. -/
theorem exists_four {l : Line} {us : List Token} (h : us.map Token.kind = l.kinds) :
    ∃ k a v b, us = [k, a, v, b] := by
  have hlength : us.length = 4 := by simpa [Line.kinds] using congrArg List.length h
  exact List.length_eq_four.1 hlength

/-- The entries of a mapping are composed, one a line. -/
theorem blockMapping_lines {lines : List Line} (hl : ∀ l ∈ lines, l.IsTextual)
    {kinds : List TokenKind}
    (hkinds : ts.map Token.kind = lines.flatMap Line.kinds ++ .blockEnd :: kinds)
    (g : Graph) (fuel : Nat) (hfuel : lines.length + 2 < fuel) (start : Mark) :
    ∃ es g' us, (blockMapping fuel start).run ⟨ts, fault?, g, anchors, handles⟩ =
        .ok (es, ⟨us, fault?, g', anchors, handles⟩) ∧
      us.map Token.kind = kinds ∧ Extends g g' ∧ List.Forall₂ (IsEntry g') lines es := by
  induction lines generalizing ts g fuel with
  | nil =>
    obtain ⟨t, us, rfl, ht, hus⟩ := List.map_eq_cons_iff.1 hkinds
    obtain ⟨fuel, rfl⟩ : ∃ n, fuel = n + 1 := ⟨fuel - 1, by omega⟩
    exact ⟨[], g, us, blockMapping_end ht fuel start, hus, fun _ _ h => h, .nil⟩
  | cons l lines ih =>
    rw [List.flatMap_cons, List.append_assoc] at hkinds
    obtain ⟨us, vs, rfl, hus, hvs⟩ := List.map_eq_append_iff.1 hkinds
    obtain ⟨k, a, v, b, rfl⟩ := exists_four hus
    rw [List.length_cons] at hfuel
    obtain ⟨fuel, rfl⟩ : ∃ n, fuel = n + 3 := ⟨fuel - 3, by omega⟩
    have hkey := isText_push g (n := ⟨strTag, .scalar l.key, a.start⟩) rfl rfl
    have hvalue := isText_push (g.push ⟨strTag, .scalar l.key, a.start⟩)
      (n := ⟨strTag, .scalar l.value, b.start⟩) rfl rfl
    rw [Array.size_push] at hvalue
    obtain ⟨es, g', rest, hrun, hrest, hextends, hentries⟩ :=
      ih (fun d hd => hl d (List.mem_cons_of_mem _ hd)) hvs
        ((g.push ⟨strTag, .scalar l.key, a.start⟩).push ⟨strTag, .scalar l.value, b.start⟩) (fuel + 2)
        (by omega)
    refine ⟨(g.size, g.size + 1) :: es, g', rest,
      blockMapping_entry (hl l List.mem_cons_self) hus hrun, hrest,
      ((extends_push _ _).trans (extends_push _ _)).trans hextends, .cons ⟨?_, ?_⟩ hentries⟩
    · exact (hkey.extends (extends_push _ _)).extends hextends
    · exact hvalue.extends hextends

/-- A block mapping is a node, filled in once its entries have been composed. -/
theorem run_node_mapping {fuel : Nat} (ht : t.kind = .blockMappingStart) :
    (node (fuel + 1) true false).run ⟨t :: ts, fault?, g, anchors, handles⟩ =
      (do fill g.size (.mapping (← blockMapping fuel t.start)); pure g.size).run
        ⟨ts, fault?, g.push ⟨mapTag, .mapping [], t.start⟩, anchors, handles⟩ := by
  obtain ⟨kind, start, finish⟩ := t
  obtain rfl : kind = .blockMappingStart := ht
  have hproperties : properties.run ⟨⟨.blockMappingStart, start, finish⟩ :: ts, fault?, g, anchors,
      handles⟩ = .ok ({}, ⟨⟨.blockMappingStart, start, finish⟩ :: ts, fault?, g, anchors, handles⟩) :=
    rfl
  have hopen : (addWith {} ⟨mapTag, .mapping [], start⟩).run
      ⟨⟨.blockMappingStart, start, finish⟩ :: ts, fault?, g, anchors, handles⟩ =
      .ok (g.size, ⟨⟨.blockMappingStart, start, finish⟩ :: ts, fault?,
        g.push ⟨mapTag, .mapping [], start⟩, anchors, handles⟩) := rfl
  rw [node, run_bind_ok run_peek]
  simp only
  rw [run_bind_ok hproperties, run_bind_ok run_peek]
  change (do
    let i ← addWith {} ⟨mapTag, .mapping [], start⟩
    take
    fill i (.mapping (← blockMapping fuel start))
    pure i : Build Nat).run _ = _
  rw [run_bind_ok hopen, run_bind_ok run_take]

theorem node_mapping {es : List (Nat × Nat)} {d : Draft} {fuel : Nat}
    (ht : t.kind = .blockMappingStart)
    (hrun : (blockMapping fuel t.start).run
      ⟨ts, fault?, g.push ⟨mapTag, .mapping [], t.start⟩, anchors, handles⟩ = .ok (es, d)) :
    (node (fuel + 1) true false).run ⟨t :: ts, fault?, g, anchors, handles⟩ =
      .ok (g.size,
        { d with nodes := d.nodes.modify g.size fun n => { n with content := .mapping es } }) := by
  rw [run_node_mapping ht, run_bind_ok hrun]
  rfl

theorem skipDocumentEnds_end (ht : t.kind = .streamEnd) (fuel : Nat) :
    (skipDocumentEnds (fuel + 1)).run ⟨t :: ts, fault?, g, anchors, handles⟩ =
      .ok ((), ⟨t :: ts, fault?, g, anchors, handles⟩) := by
  rw [skipDocumentEnds, run_bind_ok run_peek, ht]
  rfl

/-- A document of simple lines is one mapping, whose entries are those of the lines. -/
theorem document_lines {lines : List Line} (hl : ∀ l ∈ lines, l.IsTextual)
    (hkinds : ts.map Token.kind =
      .blockMappingStart :: (lines.flatMap Line.kinds ++ [.blockEnd, .streamEnd]))
    (fuel : Nat) (hfuel : lines.length + 3 < fuel) :
    ∃ d n es, (document fuel).run ⟨ts, fault?, #[], anchors, handles⟩ = .ok (some 0, d) ∧
      d.nodes[0]? = some n ∧ n.tag = mapTag ∧ n.content = .mapping es ∧
      List.Forall₂ (IsEntry d.nodes) lines es := by
  obtain ⟨t, us, rfl, ht, hus⟩ := List.map_eq_cons_iff.1 hkinds
  obtain ⟨fuel, rfl⟩ : ∃ n, fuel = n + 1 := ⟨fuel - 1, by omega⟩
  obtain ⟨es, g, vs, hrun, hvs, hextends, hentries⟩ :=
    blockMapping_lines hl hus (#[].push ⟨mapTag, .mapping [], t.start⟩) fuel (by omega) t.start
  obtain ⟨u, ws, rfl, hu, -⟩ := List.map_eq_cons_iff.1 hvs
  have hroot : g[0]? = some ⟨mapTag, .mapping [], t.start⟩ := hextends 0 _ rfl
  have hnode : (node (fuel + 1) true false).run ⟨t :: us, fault?, #[], anchors, handles⟩ =
      .ok (0, ⟨u :: ws, fault?, g.modify 0 fun n => { n with content := .mapping es }, anchors,
        handles⟩) := node_mapping ht hrun
  refine ⟨⟨u :: ws, fault?, g.modify 0 fun n => { n with content := .mapping es }, anchors, handles⟩,
    ⟨mapTag, .mapping es, t.start⟩, es, ?_, ?_, rfl, rfl, ?_⟩
  · rw [document, run_bind_ok run_peek]
    simp only [ht]
    rw [run_bind_ok hnode, run_bind_ok (skipDocumentEnds_end hu fuel), run_bind_ok run_peek, hu]
    rfl
  · rw [Array.getElem?_modify, if_pos rfl, hroot]
    rfl
  · exact hentries.imp fun l e he => ⟨he.1.fill hroot rfl es, he.2.fill hroot rfl es⟩

end Build

/-- The graph of simple lines is one mapping of texts. -/
theorem compose_join {ending : List Char} (hending : ending = [] ∨ ending = ['\n']) {l : Line}
    {lines : List Line} (hl : ∀ d ∈ l :: lines, d.IsTextual) :
    ∃ g n es, compose (Line.join (l :: lines) ++ ending) = .ok (g, some 0) ∧
      g[0]? = some n ∧ n.tag = mapTag ∧ n.content = .mapping es ∧
      List.Forall₂ (IsEntry g) (l :: lines) es := by
  obtain ⟨ts, hts, hkinds⟩ := tokens_join hending fun d hd => (hl d hd).toIsSimple
  have hlength := length_of_kinds hkinds
  obtain ⟨d, n, es, hrun, hroot, htag, hcontent, hentries⟩ :=
    Build.document_lines hl hkinds (4 * ts.length + 4) (by omega)
  refine ⟨d.nodes, n, es, ?_, hroot, htag, hcontent, hentries⟩
  rw [compose, hts]
  simp only [bind, Except.bind]
  rw [hrun]
  rfl

end Keyring.Yaml
