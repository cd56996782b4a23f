import Keyring.Proofs.Yaml.Compose
import Keyring.Yaml.Document
/-!
# The values of simple lines

A text of simple lines reads as a mapping from the keys to the values, all of them texts
(`read_join`). A node that has a value keeps it; `TextsMade` says that texts have the right ones.
-/

namespace Keyring.Yaml

open Outcome

/-! ## Merges -/

namespace Graph

variable {g : Graph} {i : Nat}

/-- A mapping whose keys are texts has nothing to merge. -/
theorem flatten_of_texts {n : Node} {es : List (Nat × Nat)} (hn : g[i]? = some n)
    (hc : n.content = .mapping es) (hkeys : ∀ e ∈ es, g.tag e.1 = strTag) : g.flatten i = .ok g := by
  have hentries : g.entries i = es := by simp [entries, hn, hc, Content.entries]
  have hmerge : g.firstMerge? i = none := by
    have hnone : (es.findIdx? fun e => g.tag e.1 == mergeTag) = none := by
      rw [List.findIdx?_eq_none_iff]
      intro e he
      rw [hkeys e he]
      decide
    simp only [firstMerge?, hentries, hnone]
    rfl
  have hplain : g.plainKeys i = g := by
    rw [plainKeys, hentries]
    refine List.foldlRecOn es _ (motive := fun g' => g' = g) rfl ?_
    rintro g' rfl e he
    rw [hkeys e he]
    rfl
  have hset : g.setEntries i es = g := by
    refine Array.ext_getElem? fun j => ?_
    rw [setEntries, Array.getElem?_modify]
    split
    · next hij =>
      subst hij
      rw [hn, ← hc]
      rfl
    · rfl
  rw [flatten, flattenWith, hmerge]
  simp only [hplain, hentries, List.nil_append, hset]

end Graph

/-! ## Keys -/

/-- The entry of a line. -/
def Line.entry (l : Line) : Key × Value :=
  (⟨.str (String.ofList l.key), none⟩, .scalar (.str (String.ofList l.value)) none)

theorem Key.insert_entry {l : Line} {done : List Line} (hnew : ∀ d ∈ done, d.key ≠ l.key) :
    Key.insert l.entry.1 l.entry.2 (done.map Line.entry) = (done ++ [l]).map Line.entry := by
  induction done with
  | nil => rfl
  | cons d done ih =>
    have hne : l.entry.1.same d.entry.1 = false := by
      change (String.ofList l.key == String.ofList d.key) = false
      rw [beq_eq_false_iff_ne, Ne, String.ofList_inj]
      exact (hnew d List.mem_cons_self).symm
    rw [List.map_cons, List.cons_append, List.map_cons,
      ← ih fun x hx => hnew x (List.mem_cons_of_mem _ hx)]
    change (if l.entry.1.same d.entry.1 then _ else _) = _
    rw [hne]
    rfl

/-! ## Making texts -/

namespace Make

/-- The texts that have values have the right ones. -/
def TextsMade (m : Maker) : Prop :=
  ∀ i w v, IsText m.graph i w → m.made[i]?.join = some v →
    v = .scalar (.str (String.ofList w)) none

variable {m : Maker} {i : Nat} {w : List Char}

theorem run_get : (get : Make Maker).run m = .ok (m, m) := rfl

theorem scalarValue_text {n : Node} (htag : n.tag = strTag) (hc : n.content = .scalar w) (g : Graph) :
    scalarValue g i n = .ok (.scalar (.str (String.ofList w)) none) := by
  have htext : scalarText g (g.size + 1) n = .ok w := by rw [scalarText, hc]
  rw [scalarValue, htext, if_pos htag]
  rfl

/-- A text gets its value, and nothing but the table of values changes. -/
theorem value_text (ht : IsText m.graph i w) (hm : TextsMade m) :
    ∃ made, (value i).run m = .ok (.scalar (.str (String.ofList w)) none, { m with made }) ∧
      TextsMade { m with made } := by
  obtain ⟨n, hn, htag, hc⟩ := id ht
  rw [value, run_bind_ok run_get]
  cases hmade : m.made[i]?.join with
  | some v =>
    obtain rfl := hm i w v ht hmade
    exact ⟨m.made, rfl, hm⟩
  | none =>
    have hform : Form.ofTag? n.tag = none := by rw [htag]; decide
    refine ⟨m.made.setIfInBounds i (some (.scalar (.str (String.ofList w)) none)), ?_, ?_⟩
    · simp only [hn, hform, scalarValue_text htag hc]
      rfl
    · intro j w' v ht' hv
      by_cases hij : i = j
      · subst hij
        obtain ⟨n', hn', -, hc'⟩ := ht'
        obtain rfl := Option.some.inj (hn.symm.trans hn')
        obtain rfl : w = w' := by simpa [hc] using hc'
        rw [Array.getElem?_setIfInBounds_self] at hv
        split at hv
        · exact (Option.some.inj hv).symm
        · cases hv
      · refine hm j w' v ht' ?_
        rwa [Array.getElem?_setIfInBounds_ne hij] at hv

/-- The entries of lines with different keys are added in their order. -/
theorem addEntries_lines {g : Graph} {lines done : List Line} {es : List (Nat × Nat)}
    (hes : List.Forall₂ (IsEntry g) lines es) (hg : m.graph = g) (hm : TextsMade m)
    (hkeys : ((done ++ lines).map Line.key).Nodup) (start : Mark) :
    ∃ made, (addEntries start es (done.map Line.entry)).run m =
      .ok ((done ++ lines).map Line.entry, { m with made }) := by
  induction hes generalizing m done with
  | nil => exact ⟨m.made, by rw [List.append_nil]; rfl⟩
  | @cons l e lines es he _ ih =>
    obtain ⟨made, hrun, hm⟩ := value_text (hg ▸ he.1) hm
    obtain ⟨made', hrun', hm⟩ := value_text (m := { m with made }) (hg ▸ he.2) hm
    have hnew : ∀ d ∈ done, d.key ≠ l.key := by
      rw [List.map_append, List.nodup_append] at hkeys
      exact fun d hd => hkeys.2.2 _ (List.mem_map_of_mem hd) _ (by simp)
    rw [List.append_cons] at hkeys ⊢
    obtain ⟨made'', hrest⟩ := ih (m := { m with made := made' }) hg hm hkeys
    refine ⟨made'', ?_⟩
    rw [addEntries, run_bind_ok hrun]
    simp only
    rw [run_bind_ok hrun', ← hrest, ← Key.insert_entry hnew]
    rfl

theorem tag_of_isEntry {g : Graph} {lines : List Line} {es : List (Nat × Nat)}
    (hes : List.Forall₂ (IsEntry g) lines es) : ∀ e ∈ es, g.tag e.1 = strTag := by
  induction hes with
  | nil => simp
  | cons he _ ih =>
    obtain ⟨⟨n, hn, htag, -⟩, -⟩ := he
    rintro d hd
    rcases List.mem_cons.1 hd with rfl | hd
    · simp [Graph.tag, hn, htag]
    · exact ih d hd

/-- The entries of a mapping of texts are those of its lines. -/
theorem mappingEntries_lines {n : Node} {lines : List Line} {es : List (Nat × Nat)}
    (hn : m.graph[i]? = some n) (hc : n.content = .mapping es)
    (hes : List.Forall₂ (IsEntry m.graph) lines es) (hm : TextsMade m)
    (hkeys : (lines.map Line.key).Nodup) :
    ∃ made, (mappingEntries i n).run m = .ok (lines.map Line.entry, { m with made }) := by
  have hflatten := Graph.flatten_of_texts hn hc (tag_of_isEntry hes)
  have hentries : m.graph.entries i = es := by simp [Graph.entries, hn, hc, Content.entries]
  have hall : (([] ++ lines).map Line.key).Nodup := hkeys
  obtain ⟨made, hrun⟩ := addEntries_lines hes rfl hm hall n.start
  refine ⟨made, ?_⟩
  have hlift : (liftM (m.graph.flatten i) : Make Graph).run m = .ok (m.graph, m) := by
    rw [hflatten]
    rfl
  rw [mappingEntries]
  simp only [hc]
  rw [run_bind_ok run_get, run_bind_ok hlift, hentries]
  exact hrun

/-- The box of a mapping of texts is filled, and no other box waits. -/
theorem fillAll_lines {n : Node} {lines : List Line} {es : List (Nat × Nat)}
    (hn : m.graph[0]? = some n) (hc : n.content = .mapping es)
    (hes : List.Forall₂ (IsEntry m.graph) lines es) (hm : TextsMade m)
    (hkeys : (lines.map Line.key).Nodup) (hboxes : m.boxes = #[.mapping []])
    (hwaiting : m.waiting = [⟨0, 0, .mapping⟩]) (fuel : Nat) :
    ∃ m', (fillAll (fuel + 3) []).run m = .ok ((), m') ∧
      m'.boxes = #[.mapping (lines.map Line.entry)] := by
  obtain ⟨made, hrun⟩ :=
    mappingEntries_lines (m := { m with waiting := [] }) hn hc hes hm hkeys
  have hcontents : (contents ⟨0, 0, .mapping⟩ n).run { m with waiting := [] } =
      .ok (.mapping (lines.map Line.entry), { m with waiting := [], made }) := by
    rw [contents]
    simp only
    rw [run_bind_ok hrun]
    rfl
  -- One round takes the box from those that wait, one fills it, and the last finds none.
  rw [fillAll]
  simp only
  rw [run_bind_ok run_get, hwaiting]
  change ∃ m', (fillAll (fuel + 2) [⟨0, 0, .mapping⟩]).run { m with waiting := [] } = _ ∧ _
  rw [fillAll]
  simp only
  rw [run_bind_ok run_get]
  simp only [hn]
  rw [run_bind_ok hcontents, fillAll, hboxes]
  exact ⟨_, rfl, rfl⟩

/-- The values of a graph start with an empty box for its topmost mapping. -/
theorem value_root {g : Graph} {n : Node} (hn : g[0]? = some n) (htag : n.tag = mapTag) :
    (value 0).run ⟨g, Array.replicate g.size none, #[], []⟩ =
      .ok (.box 0, ⟨g, (Array.replicate g.size none).setIfInBounds 0 (some (.box 0)), #[.mapping []],
        [⟨0, 0, .mapping⟩]⟩) := by
  have hsize : 0 < g.size := (Array.getElem?_eq_some_iff.1 hn).1
  have hform : Form.ofTag? n.tag = some .mapping := by rw [htag]; decide
  have hnone : (Array.replicate g.size (none : Option Value))[0]?.join = none := by simp [hsize]
  rw [value, run_bind_ok run_get]
  simp only [hnone, hn, hform]
  rfl

end Make

namespace Document

/-- The values of the graph of simple lines are one mapping. -/
theorem ofGraph_lines {g : Graph} {n : Node} {lines : List Line} {es : List (Nat × Nat)}
    (hn : g[0]? = some n) (htag : n.tag = mapTag) (hc : n.content = .mapping es)
    (hes : List.Forall₂ (IsEntry g) lines es) (hkeys : (lines.map Line.key).Nodup) :
    ofGraph g (some 0) = .ok ⟨#[.mapping (lines.map Line.entry)], .box 0⟩ := by
  have hsize : 0 < g.size := (Array.getElem?_eq_some_iff.1 hn).1
  obtain ⟨fuel, hfuel⟩ : ∃ fuel, 2 * g.size + 2 = fuel + 3 := ⟨2 * g.size - 1, by omega⟩
  have hvalue := Make.value_root hn htag
  have hmade : Make.TextsMade ⟨g, (Array.replicate g.size none).setIfInBounds 0 (some (.box 0)),
      #[.mapping []], [⟨0, 0, .mapping⟩]⟩ := by
    intro i w v ht hv
    by_cases hi : 0 = i
    · -- The topmost node is no text.
      subst hi
      obtain ⟨n', hn', -, hc'⟩ := ht
      obtain rfl := Option.some.inj (hn.symm.trans hn')
      rw [hc] at hc'
      cases hc'
    · rw [Array.getElem?_setIfInBounds_ne hi, Array.getElem?_replicate] at hv
      split at hv <;> cases hv
  obtain ⟨m', hfill, hboxes⟩ := Make.fillAll_lines hn hc hes hmade hkeys rfl rfl fuel
  have hall : (do
      let top ← Make.value 0
      Make.fillAll (2 * g.size + 2) []
      pure top : Make Value).run ⟨g, Array.replicate g.size none, #[], []⟩ = .ok (.box 0, m') := by
    rw [run_bind_ok hvalue, hfuel, run_bind_ok hfill]
    rfl
  rw [ofGraph]
  dsimp only
  rw [hall, ← hboxes]
  rfl

/-- The document of lines with different keys. -/
def ofLines (lines : List Line) : Document :=
  ⟨#[.mapping (lines.map Line.entry)], .box 0⟩

/-- A text of simple lines with different keys is a mapping of texts. -/
theorem read_join {ending : List Char} (hending : ending = [] ∨ ending = ['\n']) {lines : List Line}
    (hne : lines ≠ []) (hl : ∀ l ∈ lines, l.IsTextual) (hkeys : (lines.map Line.key).Nodup) :
    Document.read (Line.join lines ++ ending) = .ok (ofLines lines) := by
  obtain ⟨l, lines, rfl⟩ := List.exists_cons_of_ne_nil hne
  obtain ⟨g, n, es, hcompose, hn, htag, hc, hes⟩ := compose_join hending hl
  rw [Document.read, hcompose]
  exact ofGraph_lines hn htag hc hes hkeys

/-- The first line with the key of a line is that line. -/
theorem find?_of_nodup {lines : List Line} (hkeys : (lines.map Line.key).Nodup) {l : Line}
    (hl : l ∈ lines) :
    lines.find? (fun d => String.ofList d.key == String.ofList l.key) = some l := by
  induction lines with
  | nil => cases hl
  | cons d lines ih =>
    rw [List.map_cons, List.nodup_cons] at hkeys
    rcases List.mem_cons.1 hl with rfl | hl
    · simp
    · have hd : d.key ≠ l.key := fun hd => hkeys.1 (hd ▸ List.mem_map_of_mem hl)
      rw [List.find?_cons_of_neg (by simpa [String.ofList_inj] using hd)]
      exact ih hkeys.2 hl

/-- The value of each key is that of its line. -/
theorem get?_ofLines {lines : List Line} (hkeys : (lines.map Line.key).Nodup) {l : Line}
    (hl : l ∈ lines) :
    (ofLines lines).get? (String.ofList l.key) = some (.str (String.ofList l.value)) := by
  change (((lines.map Line.entry).find? _).map _) = _
  rw [List.find?_map]
  change ((lines.find? fun d => String.ofList d.key == String.ofList l.key).map Line.entry).map _ = _
  rw [find?_of_nodup hkeys hl]
  rfl

end Document

end Keyring.Yaml
