import Keyring.Proofs.Lockstep
import Keyring.Proofs.Yaml.PrivateKey.Merge
import Keyring.Proofs.Yaml.Values
/-!
# Values in lockstep

The values of graphs that differ in the private key are made in lockstep (`Maker.Twin`): first the
topmost mapping (`value_root_twin`), then what the boxes hold (`steady_fillAll`). The private key is the
value of one entry of box 0, the topmost mapping, and no other value refers to that box (`Value.IsInner`).
-/

namespace Keyring.Yaml

open Outcome

/-- The value of a text. -/
def textValue (w : List Char) : Value :=
  .scalar (.str (String.ofList w)) none

/-- The value is not the topmost mapping. -/
def Value.IsInner : Value → Prop
  | .scalar _ _ => True
  | .box i => 0 < i

/-- The box does not hold the topmost mapping. -/
def Box.IsInner : Box → Prop
  | .list items => ∀ v ∈ items, v.IsInner
  | .pairs items => ∀ p ∈ items, p.1.IsInner ∧ p.2.IsInner
  | .mapping entries => ∀ e ∈ entries, e.2.IsInner
  | .set _ => True

/-- Entries of mapping `i`, which may be different private keys if it is the topmost. -/
inductive EntryTwin (key key' : List Char) (i : Nat) : Key × Value → Key × Value → Prop
  | same {k v} : v.IsInner → EntryTwin key key' i (k, v) (k, v)
  | privateKey {k} : i = 0 → k.datum = .str "privateKey" →
      EntryTwin key key' i (k, textValue key) (k, textValue key')

/-- Box `i` of two documents: the topmost mapping, or a box that is the same in both. -/
inductive BoxTwin (key key' : List Char) : Nat → Box → Box → Prop
  | top {es es'} : List.Forall₂ (EntryTwin key key' 0) es es' →
      BoxTwin key key' 0 (.mapping es) (.mapping es')
  | inner {i b} : 0 < i → b.IsInner → BoxTwin key key' i b b

/-- A box that is filled from a node: the topmost one, or a later one. -/
def Task.IsPlaced (t : Task) : Prop :=
  t.box = 0 ∧ t.node = 0 ∧ t.form = .mapping ∨ 0 < t.box ∧ 5 ≤ t.node

/-- Values under construction of graphs that differ in the private key. -/
structure Maker.Twin (key key' : List Char) (m m' : Maker) : Prop where
  graph : Graph.Twin key key' m.graph m'.graph
  made_size : m'.made.size = m.made.size
  made : ∀ i, i ≠ 4 → m'.made[i]? = m.made[i]?
  inner : ∀ i v, i ≠ 0 → m.made[i]?.join = some v → v.IsInner
  name : ∀ v, m.made[3]?.join = some v → v = textValue "privateKey".toList
  privateKey : m.made[4]?.join = none ∧ m'.made[4]?.join = none ∨
    m.made[4]?.join = some (textValue key) ∧ m'.made[4]?.join = some (textValue key')
  boxes_size : m'.boxes.size = m.boxes.size
  boxes_pos : 0 < m.boxes.size
  boxes : ∀ i, Option.Rel (BoxTwin key key' i) m.boxes[i]? m'.boxes[i]?
  waiting : m'.waiting = m.waiting
  placed : ∀ t ∈ m.waiting, t.IsPlaced

namespace Graph.Twin

variable {key key' : List Char} {g g' : Graph} {i : Nat} {n : Node}

/-- Only the topmost node and later ones are collections. -/
theorem later_of_form (h : Twin key key' g g') (hi : i ≠ 0) (hn : g[i]? = some n) {form : Form}
    (hform : Form.ofTag? n.tag = some form) : 5 ≤ i := by
  rcases h.isText_or_later hi with ⟨w, m, hm, htag, -⟩ | hlater
  · obtain rfl := Option.some.inj (hm.symm.trans hn)
    have hnone : Form.ofTag? strTag = none := by decide
    rw [htag, hnone] at hform
    cases hform
  · exact hlater

theorem scalarText_eq (h : Twin key key' g g') (fuel : Nat) (hn : n.content.IsLater) :
    Make.scalarText g' fuel n = Make.scalarText g fuel n := by
  induction fuel generalizing n with
  | zero => rfl
  | succ fuel ih =>
    unfold Make.scalarText
    cases hc : n.content with
    | scalar text => rfl
    | sequence items => rfl
    | mapping es =>
      simp only [h.tag_eq]
      cases he : es.find? fun e => g.tag e.1 == valueTag with
      | none => rfl
      | some e =>
        rw [hc] at hn
        have hlater := hn e (List.mem_of_find?_eq_some he)
        simp only [Option.bind_some, h.same e.2 (by omega)]
        cases hm : g[e.2]? with
        | none => rfl
        | some m => exact ih (h.isLater (by omega) hm)

theorem scalarValue_eq (h : Twin key key' g g') (hn : n.content.IsLater) :
    Make.scalarValue g' i n = Make.scalarValue g i n := by
  simp only [Make.scalarValue, h.scalarText_eq _ hn, h.size]

end Graph.Twin

namespace Maker.Twin

variable {key key' : List Char} {m m' : Maker} {i : Nat}

/-- A node gets its value: the private key one or the other, each other node the same. -/
theorem setMade (h : Twin key key' m m') {v v' : Value} (hv : v.IsInner)
    (hvv' : i = 4 ∧ v = textValue key ∧ v' = textValue key' ∨ i ≠ 4 ∧ v' = v)
    (hname : i = 3 → v = textValue "privateKey".toList) :
    Twin key key' { m with made := m.made.setIfInBounds i (some v) }
      { m' with made := m'.made.setIfInBounds i (some v') } := by
  have hold {j : Nat} {w : Value} (hw : (m.made.setIfInBounds i (some v))[j]?.join = some w) :
      i = j ∧ w = v ∨ m.made[j]?.join = some w := by
    rw [Array.getElem?_setIfInBounds] at hw
    split at hw
    · next hij =>
      split at hw
      · exact .inl ⟨hij, (Option.some.inj hw).symm⟩
      · cases hw
    · exact .inr hw
  refine { h with made_size := ?_, made := ?_, inner := ?_, name := ?_, privateKey := ?_ }
  · simpa using h.made_size
  · intro j hj
    rcases hvv' with ⟨rfl, -⟩ | ⟨-, rfl⟩
    · rw [Array.getElem?_setIfInBounds_ne hj.symm, Array.getElem?_setIfInBounds_ne hj.symm, h.made j hj]
    · simp only [Array.getElem?_setIfInBounds, h.made_size, h.made j hj]
  · intro j w hj hw
    rcases hold hw with ⟨-, rfl⟩ | hw
    · exact hv
    · exact h.inner j w hj hw
  · intro w hw
    rcases hold hw with ⟨hij, rfl⟩ | hw
    · exact hname hij
    · exact h.name w hw
  · rcases hvv' with ⟨rfl, rfl, rfl⟩ | ⟨hi, -⟩
    · rw [Array.getElem?_setIfInBounds_self, Array.getElem?_setIfInBounds_self, h.made_size]
      split
      · exact .inr ⟨rfl, rfl⟩
      · exact .inl ⟨rfl, rfl⟩
    · rw [Array.getElem?_setIfInBounds_ne hi, Array.getElem?_setIfInBounds_ne hi]
      exact h.privateKey

/-- An empty box is made for a later node. -/
theorem pushBox (h : Twin key key' m m') (hi : 5 ≤ i) (form : Form) :
    Twin key key'
      { m with boxes := m.boxes.push form.empty, waiting := ⟨m.boxes.size, i, form⟩ :: m.waiting }
      { m' with boxes := m'.boxes.push form.empty, waiting := ⟨m'.boxes.size, i, form⟩ :: m'.waiting } := by
  have hpos := h.boxes_pos
  have hempty : form.empty.IsInner := by cases form <;> simp [Form.empty, Box.IsInner]
  refine { h with boxes_size := ?_, boxes_pos := ?_, boxes := ?_, waiting := ?_, placed := ?_ }
  · simp [h.boxes_size]
  · simp
  · intro j
    rw [Array.getElem?_push, Array.getElem?_push, h.boxes_size]
    split
    · exact .some (.inner (by omega) hempty)
    · exact h.boxes j
  · simp only [h.waiting, h.boxes_size]
  · exact List.forall_mem_cons.2 ⟨.inr ⟨hpos, hi⟩, h.placed⟩

/-- A box is filled. -/
theorem setBox (h : Twin key key' m m') {b b' : Box} (hb : BoxTwin key key' i b b') :
    Twin key key' { m with boxes := m.boxes.setIfInBounds i b }
      { m' with boxes := m'.boxes.setIfInBounds i b' } := by
  refine { h with boxes_size := ?_, boxes_pos := ?_, boxes := ?_ }
  · simpa using h.boxes_size
  · simpa using h.boxes_pos
  · intro j
    rw [Array.getElem?_setIfInBounds, Array.getElem?_setIfInBounds, h.boxes_size]
    split
    · next hij =>
      subst hij
      split
      · exact .some hb
      · exact .none
    · exact h.boxes j

end Maker.Twin

namespace Make

variable {key key' : List Char} {i : Nat}

/-- On values under construction that differ in the private key, the step fails alike or has the same
value, which `P` holds of. -/
abbrev Steady {α : Type} (key key' : List Char) (P : α → Prop) (x : Make α) : Prop :=
  Keyring.Steady (Maker.Twin key key') P x

/-- A scalar is no box. -/
theorem scalarValue_alike (g : Graph) (i : Nat) (n : Node) :
    Alike (fun v v' => v' = v ∧ v.IsInner) (scalarValue g i n) (scalarValue g i n) := by
  unfold scalarValue
  dsimp only
  split
  · exact .bind_self fun _ _ => .ok ⟨rfl, trivial⟩
  split
  · exact .bind_self fun _ _ => .ok ⟨rfl, trivial⟩
  split
  · exact .bind_self fun _ _ => .bind_self fun _ _ => .ok ⟨rfl, trivial⟩
  split
  · exact .bind_self fun _ _ => .bind_self fun _ _ => .ok ⟨rfl, trivial⟩
  split
  · exact .bind_self fun _ _ => .bind_self fun _ _ => .ok ⟨rfl, trivial⟩
  split
  · exact .bind_self fun _ _ => .bind_self fun _ _ => .ok ⟨rfl, trivial⟩
  split
  · refine .bind_self fun _ _ => ?_
    split
    · exact .bind_self fun _ _ => .ok ⟨rfl, trivial⟩
    · exact .error _
  · exact .error _

theorem steady_value (hi : i ≠ 0) (hi' : i ≠ 4) : Steady key key'
    (fun v => v.IsInner ∧ (i = 3 → v = textValue "privateKey".toList)) (value i) := by
  refine lockstep_get ?_
  intro m m' h
  rw [h.made i hi', h.graph.same i hi']
  cases hv : m.made[i]?.join with
  | some v =>
    -- The node has its value already.
    exact .ok ⟨⟨rfl, h.inner i v hi hv, fun hi => h.name v (hi ▸ hv)⟩, h⟩
  | none =>
    cases hn : m.graph[i]? with
    | none => exact .error _
    | some n =>
      dsimp only
      split
      · -- The value of a scalar is looked up in later nodes only.
        have hscalar := scalarValue_alike m.graph i n
        rw [h.graph.scalarValue_eq (h.graph.isLater hi hn)]
        cases hv : scalarValue m.graph i n with
        | error fault => exact .error fault
        | ok v =>
          rw [hv] at hscalar
          obtain ⟨-, hinner⟩ : v = v ∧ v.IsInner := by cases hscalar; assumption
          have hname : i = 3 → v = textValue "privateKey".toList := by
            rintro rfl
            obtain ⟨n', hn', htag, hc⟩ := h.graph.keyKey
            obtain rfl := Option.some.inj (hn.symm.trans hn')
            exact Except.ok.inj (hv.symm.trans (scalarValue_text htag hc _))
          exact .ok ⟨⟨rfl, hinner, hname⟩, h.setMade hinner (.inr ⟨hi', rfl⟩) hname⟩
      · next form hform =>
        -- A collection gets the next box, which has the same number on both sides.
        have hlater := h.graph.later_of_form hi hn hform
        have hbox : Value.IsInner (.box m.boxes.size) := h.boxes_pos
        have h' := (h.setMade hbox (.inr ⟨hi', rfl⟩) fun hi => by omega).pushBox hlater form
        rw [h.boxes_size]
        refine .ok ⟨⟨rfl, hbox, fun hi => by omega⟩, ?_⟩
        simpa only [h.boxes_size] using h'

/-- The value of the private key. -/
theorem lockstep_value_key : Lockstep (Maker.Twin key key')
    (fun v v' => v = textValue key ∧ v' = textValue key') (value 4) (value 4) := by
  refine lockstep_get ?_
  intro m m' h
  obtain ⟨place, hn, hn'⟩ := h.graph.key
  rcases h.privateKey with ⟨hnone, hnone'⟩ | ⟨hv, hv'⟩
  · have hform : Form.ofTag? strTag = none := by decide
    have htext (g : Graph) (w : List Char) :
        scalarValue g 4 ⟨strTag, .scalar w, place⟩ = .ok (textValue w) := scalarValue_text rfl rfl g
    rw [hnone, hnone', hn, hn']
    simp only [hform, htext]
    exact .ok ⟨⟨rfl, rfl⟩, h.setMade trivial (.inl ⟨rfl, rfl, rfl⟩) nofun⟩
  · rw [hv, hv']
    exact .ok ⟨⟨rfl, rfl⟩, h⟩

theorem steady_value_later (hi : 5 ≤ i) : Steady key key' Value.IsInner (value i) :=
  (steady_value (by omega) (by omega)).mono fun _ _ h => ⟨h.1, h.2.1⟩

/-! ## Mappings -/

/-- Only the same text is the same key as a text. -/
theorem datum_of_same {k l : Key} {s : String} (hk : k.datum = .str s) (h : k.same l = true) :
    l.datum = .str s := by
  unfold Key.same at h
  rw [hk] at h
  cases hl : l.datum with
  | str t =>
    rw [hl] at h
    exact congrArg Datum.str (eq_of_beq h).symm
  | float x =>
    rw [hl] at h
    cases hx : Key.binary? (.float x) with
    | none => rw [hx] at h; cases h
    | some _ => rw [hx] at h; cases h
  | _ =>
    rw [hl] at h
    cases h

/-- Entries are put at a key. -/
theorem forall₂_insert {es es' : List (Key × Value)} (h : List.Forall₂ (EntryTwin key key' i) es es')
    {k : Key} {v v' : Value} (hv : EntryTwin key key' i (k, v) (k, v')) :
    List.Forall₂ (EntryTwin key key' i) (Key.insert k v es) (Key.insert k v' es') := by
  induction h with
  | nil => exact .cons hv .nil
  | @cons e e' es es' he hes ih =>
    obtain ⟨l, w, w', rfl, rfl⟩ : ∃ l w w', e = (l, w) ∧ e' = (l, w') := by
      cases he with
      | same => exact ⟨_, _, _, rfl, rfl⟩
      | privateKey => exact ⟨_, _, _, rfl, rfl⟩
    simp only [Key.insert]
    split
    · next hsame =>
      refine .cons ?_ hes
      cases hv with
      | same hinner => exact .same hinner
      | privateKey hi hk => exact .privateKey hi (datum_of_same hk hsame)
    · exact .cons he ih

/-- The entries of a mapping are added in lockstep. -/
theorem lockstep_addEntries (start : Mark) {es : List (Nat × Nat)} (hes : ∀ e ∈ es, MayHold i e)
    {made made' : List (Key × Value)} (hmade : List.Forall₂ (EntryTwin key key' i) made made') :
    Lockstep (Maker.Twin key key') (List.Forall₂ (EntryTwin key key' i)) (addEntries start es made)
      (addEntries start es made') := by
  induction es generalizing made made' with
  | nil => exact lockstep_pure hmade
  | cons e es ih =>
    obtain ⟨k, v⟩ := e
    obtain ⟨he, hes⟩ := List.forall_mem_cons.1 hes
    -- An entry is added whose key is read the same on both sides.
    have hstep {P : Value → Value → Prop} (hk : k ≠ 0) (hk' : k ≠ 4)
        (hv : Lockstep (Maker.Twin key key') P (value v) (value v))
        (hentry : ∀ k' x x', (k = 3 → k'.datum = .str "privateKey") → P x x' →
          EntryTwin key key' i (k', x) (k', x')) :
        Lockstep (Maker.Twin key key') (List.Forall₂ (EntryTwin key key' i))
          (addEntries start ((k, v) :: es) made) (addEntries start ((k, v) :: es) made') := by
      rw [addEntries, addEntries]
      refine Lockstep.bind (steady_value hk hk') ?_
      rintro _ x ⟨rfl, -, hname⟩
      cases x with
      | scalar d identity? =>
        refine hv.bind fun x x' hx => ih hes (forall₂_insert hmade (hentry _ _ _ (fun hk => ?_) hx))
        rw [textValue, String.ofList_toList] at hname
        exact (Value.scalar.inj (hname hk)).1
      | box b =>
        refine lockstep_get ?_
        intro m m' h
        dsimp only
        rw [h.graph.map_eq (f := fun n : Node => n.start) fun _ _ _ _ => rfl]
        exact .error _
    have hsame (hk : k ≠ 0) (hk' : k ≠ 4) (hv : v ≠ 0) (hv' : v ≠ 4) := hstep hk hk'
      (steady_value hv hv') fun k' x x' _ hx => by
        obtain ⟨rfl, hinner, -⟩ := hx
        exact .same hinner
    rcases he with ⟨rfl, ⟨rfl, rfl⟩ | ⟨rfl, rfl⟩ | ⟨hk, hv⟩⟩ | ⟨hk, hv⟩
    · exact hsame (by omega) (by omega) (by omega) (by omega)
    · refine hstep (by omega) (by omega) lockstep_value_key fun k' x x' hname hx => ?_
      obtain ⟨rfl, rfl⟩ := hx
      exact .privateKey rfl (hname rfl)
    · exact hsame (by omega) (by omega) (by omega) (by omega)
    · exact hsame (by omega) (by omega) (by omega) (by omega)

/-- The entries of a mapping that is not the topmost are the same. -/
theorem entries_eq {es es' : List (Key × Value)} (hi : i ≠ 0)
    (h : List.Forall₂ (EntryTwin key key' i) es es') : es' = es ∧ ∀ e ∈ es, e.2.IsInner := by
  induction h with
  | nil => simp
  | cons he _ ih =>
    cases he with
    | same hinner => exact ⟨by rw [ih.1], List.forall_mem_cons.2 ⟨hinner, ih.2⟩⟩
    | privateKey htop => exact absurd htop hi

theorem lockstep_mappingEntries (hi : IsPlace i) (n : Node) :
    Lockstep (Maker.Twin key key') (List.Forall₂ (EntryTwin key key' i)) (mappingEntries i n)
      (mappingEntries i n) := by
  unfold mappingEntries
  split
  · refine lockstep_get ?_
    intro m m' h
    rcases (h.graph.flatten hi).cases with ⟨fault, hg, hg'⟩ | ⟨g, g', hg, hg', htwin⟩
    · rw [hg, hg']
      exact .error fault
    · have hentries : Alike (fun r r' => List.Forall₂ (EntryTwin key key' i) r.1 r'.1 ∧
          Maker.Twin key key' r.2 r'.2)
          ((addEntries n.start (g.entries i) []).run { m with graph := g })
          ((addEntries n.start (g'.entries i) []).run { m' with graph := g' }) := by
        rw [htwin.entries_eq]
        exact lockstep_addEntries n.start (htwin.mayHold hi) .nil _ _ { h with graph := htwin }
      rw [hg, hg']
      exact hentries
  · exact lockstep_throw _

theorem steady_mappingEntries (hi : 5 ≤ i) (n : Node) :
    Steady key key' (fun es => ∀ e ∈ es, e.2.IsInner) (mappingEntries i n) :=
  (lockstep_mappingEntries (.inr hi) n).mono fun _ _ h => entries_eq (by omega) h

/-! ## Boxes -/

theorem steady_pair (context : String) (start : Mark) (hi : 5 ≤ i) :
    Steady key key' (fun p => p.1.IsInner ∧ p.2.IsInner) (pair context start i) := by
  refine lockstep_get ?_
  intro m m' h
  rw [h.graph.same i (by omega)]
  cases hn : m.graph[i]? with
  | none => exact .error _
  | some n =>
    have hlater := h.graph.later i n hi hn
    dsimp only
    split
    · next k v hc =>
      rw [hc] at hlater
      obtain ⟨hk, hv⟩ := hlater _ List.mem_cons_self
      have hpair : Steady key key' (fun p => p.1.IsInner ∧ p.2.IsInner)
          (do pure (← value k, ← value v)) :=
        (steady_value_later hk).bind fun _ hk => (steady_value_later hv).bind fun _ hv =>
          steady_pure ⟨hk, hv⟩
      exact hpair _ _ h
    · exact .error _
    · exact .error _

theorem steady_pairs (context : String) {n : Node} (hn : n.content.IsLater) :
    Steady key key' Box.IsInner (pairs context n) := by
  unfold pairs
  split
  · next items hc =>
    rw [hc] at hn
    exact (steady_mapM fun i hi => steady_pair context n.start (hn i hi)).bind fun _ h => steady_pure h
  · exact steady_throw _

/-- What a box other than the topmost mapping holds. -/
theorem steady_contents {t : Task} (ht : 5 ≤ t.node) {n : Node} (hn : n.content.IsLater) :
    Steady key key' Box.IsInner (contents t n) := by
  unfold contents
  split
  · split
    · next items hc =>
      rw [hc] at hn
      exact (steady_mapM fun i hi => steady_value_later (hn i hi)).bind fun _ h => steady_pure h
    · exact steady_throw _
  · exact (steady_mappingEntries ht n).bind fun _ h => steady_pure h
  · exact (steady_mappingEntries ht n).bind fun _ _ => steady_pure trivial
  · exact steady_pairs _ hn
  · exact steady_pairs _ hn

theorem lockstep_contents {t : Task} (ht : t.IsPlaced) {n : Node}
    (hn : 5 ≤ t.node → n.content.IsLater) :
    Lockstep (Maker.Twin key key') (BoxTwin key key' t.box) (contents t n) (contents t n) := by
  rcases ht with ⟨hbox, hnode, hform⟩ | ⟨hbox, hnode⟩
  · unfold contents
    rw [hform, hbox, hnode]
    exact (lockstep_mappingEntries (.inl rfl) n).bind fun _ _ h => lockstep_pure (.top h)
  · refine (steady_contents hnode (hn hnode)).mono ?_
    rintro b _ ⟨rfl, hinner⟩
    exact .inner hbox hinner

/-- The boxes are filled in lockstep. -/
theorem steady_fillAll (fuel : Nat) {tasks : List Task} (ht : ∀ t ∈ tasks, t.IsPlaced) :
    Steady key key' (fun _ => True) (fillAll fuel tasks) := by
  induction fuel generalizing tasks with
  | zero => exact steady_pure trivial
  | succ fuel ih =>
    cases tasks with
    | nil =>
      rw [fillAll]
      refine lockstep_get ?_
      intro m m' h
      dsimp only
      rw [h.waiting]
      split
      · exact .ok ⟨⟨rfl, trivial⟩, h⟩
      · exact ih (fun t ht => h.placed t (List.mem_reverse.1 ht)) _ _
          { h with waiting := rfl, placed := by simp }
    | cons t rest =>
      obtain ⟨ht, hrest⟩ := List.forall_mem_cons.1 ht
      rw [fillAll]
      refine lockstep_get ?_
      intro m m' h
      have hne : t.node ≠ 4 := by rcases ht with ⟨-, hnode, -⟩ | ⟨-, hnode⟩ <;> omega
      have hrest := ih hrest
      rw [h.graph.same t.node hne]
      cases hn : m.graph[t.node]? with
      | none => exact hrest _ _ h
      | some n =>
        have hcontents : Lockstep (Maker.Twin key key') (BoxTwin key key' t.box) _ _ :=
          lockstep_contents ht fun ht => h.graph.later t.node n ht hn
        have hfill := hcontents.bind fun b b' hb => (lockstep_modify fun _ _ h => h.setBox hb).bind
          fun _ _ _ => hrest
        exact hfill _ _ h

/-- The topmost mapping is made first. -/
theorem value_root_twin {g g' : Graph} (h : Graph.Twin key key' g g') :
    Alike (fun r r' => (r.1 = .box 0 ∧ r'.1 = .box 0) ∧ Maker.Twin key key' r.2 r'.2)
      ((value 0).run ⟨g, Array.replicate g.size none, #[], []⟩)
      ((value 0).run ⟨g', Array.replicate g'.size none, #[], []⟩) := by
  obtain ⟨n, _, hn, htag, -⟩ := h.top
  have hn' : g'[0]? = some n := by rw [h.same 0 (by omega), hn]
  have hnone {i : Nat} (hi : i ≠ 0) :
      ((Array.replicate g.size (none : Option Value)).setIfInBounds 0 (some (.box 0)))[i]?.join = none := by
    rw [Array.getElem?_setIfInBounds_ne hi.symm, Array.getElem?_replicate]
    split <;> rfl
  rw [value_root hn htag, value_root hn' htag]
  refine .ok ⟨⟨rfl, rfl⟩, ?_⟩
  constructor
  case graph => exact h
  case made_size => simp [h.size]
  case made =>
    intro i hi
    dsimp only
    rw [h.size]
  case inner =>
    intro i v hi hv
    rw [hnone hi] at hv
    cases hv
  case name =>
    intro v hv
    rw [hnone (by omega)] at hv
    cases hv
  case privateKey =>
    dsimp only
    rw [h.size]
    exact .inl ⟨hnone (by omega), hnone (by omega)⟩
  case boxes_size => rfl
  case boxes_pos => exact Nat.one_pos
  case boxes =>
    intro i
    match i with
    | 0 => exact .some (.top .nil)
    | _ + 1 => exact .none
  case waiting => rfl
  case placed => exact List.forall_mem_cons.2 ⟨.inl ⟨rfl, rfl, rfl⟩, by simp⟩

end Make

end Keyring.Yaml
