import Keyring.Entries
import Keyring.Proofs.Lockstep
import Keyring.Proofs.Yaml.PrivateKey.Graph
import Keyring.Proofs.Yaml.PrivateKey.Tokens
/-!
# Composing in lockstep

What is composed after the private key does not look at it: on two documents under construction that
differ in the private key only, every step fails alike or builds the same nodes (`Steady`), and none of
them refers to the private key or to the topmost mapping. So the texts compose to graphs that differ in
the private key, or to the same fault (`compose_head`).
-/

namespace Keyring.Yaml

open Outcome

/-- Two documents under construction that differ in the private key. -/
inductive Draft.Twin (key key' : List Char) : Draft → Draft → Prop
  | intro {ts fault? g g' anchors handles} : Graph.Twin key key' g g' → (∀ a ∈ anchors, 5 ≤ a.2) →
      Twin key key' ⟨ts, fault?, g, anchors, handles⟩ ⟨ts, fault?, g', anchors, handles⟩

namespace Build

variable {key key' : List Char} {α β : Type} {P : α → Prop} {Q : β → Prop}

/-- On documents that differ in the private key, the step fails alike or has the same value, which `P`
holds of. -/
abbrev Steady (key key' : List Char) (P : α → Prop) (x : Build α) : Prop :=
  Keyring.Steady (Draft.Twin key key') P x

/-! ## Single steps -/

theorem steady_peek : Steady key key' (fun _ => True) peek := by
  rintro _ _ ⟨hg, ha⟩
  rename_i ts fault? g g' anchors handles
  cases ts with
  | nil => exact .error _
  | cons t ts => exact .ok ⟨⟨rfl, trivial⟩, hg, ha⟩

theorem steady_take : Steady key key' (fun _ => True) take :=
  steady_modify fun _ _ ⟨hg, ha⟩ => ⟨hg, ha⟩

theorem steady_add {n : Node} (hn : n.content.IsLater) : Steady key key' (5 ≤ ·) (add n) := by
  rintro _ _ ⟨hg, ha⟩
  exact .ok ⟨⟨hg.size, hg.five_le_size⟩, hg.push hn, ha⟩

theorem steady_addEmpty (m : Mark) : Steady key key' (5 ≤ ·) (addEmpty m) :=
  steady_add trivial

theorem steady_fill {i : Nat} {content : Content} (hi : 5 ≤ i) (hc : content.IsLater) :
    Steady key key' (fun _ => True) (fill i content) :=
  steady_modify fun _ _ ⟨hg, ha⟩ => ⟨hg.modify hi fun _ _ => hc, ha⟩

theorem steady_expandTag (start place : Mark) (handle? : Option String) (suffix : String) :
    Steady key key' (fun _ => True) (expandTag start place handle? suffix) := by
  unfold expandTag
  cases handle? with
  | none => exact steady_pure trivial
  | some handle =>
    refine lockstep_get ?_
    rintro s s' ⟨hg, ha⟩
    dsimp only
    split
    · exact .ok ⟨⟨rfl, trivial⟩, hg, ha⟩
    · exact .error _

theorem steady_properties : Steady key key' (fun _ => True) properties := by
  unfold properties
  refine steady_peek.bind fun t _ => ?_
  split
  · refine steady_take.bind fun _ _ => steady_peek.bind fun u _ => ?_
    split
    · exact steady_take.bind fun _ _ => (steady_expandTag _ _ _ _).bind fun _ _ => steady_pure trivial
    · exact steady_pure trivial
  · refine steady_take.bind fun _ _ => steady_peek.bind fun u _ => ?_
    split
    · exact steady_take.bind fun _ _ => (steady_expandTag _ _ _ _).bind fun _ _ => steady_pure trivial
    · exact (steady_expandTag _ _ _ _).bind fun _ _ => steady_pure trivial
  · exact steady_pure trivial

theorem steady_addWith (p : Properties) {n : Node} (hn : n.content.IsLater) :
    Steady key key' (5 ≤ ·) (addWith p n) := by
  unfold addWith
  split
  · exact steady_add hn
  · next name _ =>
    refine lockstep_get ?_
    rintro s s' ⟨hg, ha⟩
    rename_i ts fault? g g' anchors handles
    dsimp only
    split
    · rw [hg.map_eq (f := fun n : Node => n.start) fun _ _ _ _ => rfl]
      exact .error _
    · next hnone =>
      have hadd : Steady key key' (5 ≤ ·) (do
          let i ← add n
          modify fun d => { d with anchors := (name, i) :: d.anchors }
          pure i) := by
        refine (steady_add hn).bind fun i hi => ?_
        refine (steady_modify ?_).bind fun _ _ => steady_pure hi
        rintro _ _ ⟨hg, ha⟩
        exact ⟨hg, List.forall_mem_cons.2 ⟨hi, ha⟩⟩
      exact hadd _ _ ⟨hg, ha⟩

/-! ## Nodes -/

/-- What the mutual functions do with so much fuel. -/
structure AllSteady (key key' : List Char) (fuel : Nat) : Prop where
  node : ∀ block indentless, Steady key key' (5 ≤ ·) (node fuel block indentless)
  blockSequence : ∀ start, Steady key key' (fun is => ∀ i ∈ is, 5 ≤ i) (blockSequence fuel start)
  indentlessSequence : Steady key key' (fun is => ∀ i ∈ is, 5 ≤ i) (indentlessSequence fuel)
  blockMapping : ∀ start,
    Steady key key' (fun es => ∀ e ∈ es, 5 ≤ e.1 ∧ 5 ≤ e.2) (blockMapping fuel start)
  blockPart : ∀ finish, Steady key key' (5 ≤ ·) (blockPart fuel finish)
  flowSequence : ∀ start first,
    Steady key key' (fun is => ∀ i ∈ is, 5 ≤ i) (flowSequence fuel start first)
  flowMapping : ∀ start first,
    Steady key key' (fun es => ∀ e ∈ es, 5 ≤ e.1 ∧ 5 ≤ e.2) (flowMapping fuel start first)
  flowPart : ∀ closing isKey finish, Steady key key' (5 ≤ ·) (flowPart fuel closing isKey finish)
  flowValue : ∀ closing, Steady key key' (5 ≤ ·) (flowValue fuel closing)

variable {fuel : Nat}

/-- A collection is filled in once its parts have been built. -/
theorem steady_filled {x : Build α} (content : α → Content)
    (hx : Steady key key' (fun a => (content a).IsLater) x) {i : Nat} (hi : 5 ≤ i) :
    Steady key key' (5 ≤ ·) (do fill i (content (← x)); pure i) :=
  hx.bind fun _ ha => (steady_fill hi ha).bind fun _ _ => steady_pure hi

theorem steady_node (ih : AllSteady key key' fuel) (block indentless : Bool) :
    Steady key key' (5 ≤ ·) (node (fuel + 1) block indentless) := by
  rw [node]
  refine steady_peek.bind fun t _ => ?_
  split
  · -- An alias stands for an anchored node.
    refine steady_take.bind fun _ _ => lockstep_get ?_
    rintro s s' ⟨hg, ha⟩
    dsimp only
    split
    · next i hi =>
      exact .ok ⟨⟨rfl, ha _ (Entries.mem_of_lookup hi)⟩, hg, ha⟩
    · exact .error _
  · refine steady_properties.bind fun p _ => steady_peek.bind fun t _ => ?_
    have hsequence (start : Mark) : Steady key key' (5 ≤ ·)
        (addWith p ⟨collectionTag p.tag? seqTag, .sequence [], start⟩) :=
      steady_addWith p (by simp [Content.IsLater])
    have hmapping (start : Mark) : Steady key key' (5 ≤ ·)
        (addWith p ⟨collectionTag p.tag? mapTag, .mapping [], start⟩) :=
      steady_addWith p (by simp [Content.IsLater])
    dsimp only
    split
    · exact steady_take.bind fun _ _ => steady_addWith p trivial
    · exact (hsequence _).bind fun i hi => steady_take.bind fun _ _ =>
        steady_filled .sequence (ih.flowSequence _ _) hi
    · exact (hmapping _).bind fun i hi => steady_take.bind fun _ _ =>
        steady_filled .mapping (ih.flowMapping _ _) hi
    · split
      · exact (hsequence _).bind fun i hi =>
          steady_filled .sequence ih.indentlessSequence hi
      · split
        · exact (hsequence _).bind fun i hi => steady_take.bind fun _ _ =>
            steady_filled .sequence (ih.blockSequence _) hi
        · split
          · exact (hmapping _).bind fun i hi => steady_take.bind fun _ _ =>
              steady_filled .mapping (ih.blockMapping _) hi
          · split
            · exact steady_addWith p trivial
            · exact steady_throw _

/-- A part and the parts after it. -/
theorem steady_cons {R : α → Prop} {x : Build (List α)} (hx : Steady key key' (fun as => ∀ a ∈ as, R a) x)
    {a : α} (ha : R a) : Steady key key' (fun as => ∀ a ∈ as, R a) (do pure (a :: (← x))) :=
  hx.bind fun _ h => steady_pure (List.forall_mem_cons.2 ⟨ha, h⟩)

theorem steady_nil {R : α → Prop} : Steady key key' (fun as => ∀ a ∈ as, R a) (do take; pure []) :=
  steady_take.bind fun _ _ => steady_pure (by simp)

theorem steady_blockSequence (ih : AllSteady key key' fuel) (start : Mark) :
    Steady key key' (fun is => ∀ i ∈ is, 5 ≤ i) (blockSequence (fuel + 1) start) := by
  rw [blockSequence]
  refine steady_peek.bind fun t _ => ?_
  split
  · refine steady_take.bind fun _ _ => steady_peek.bind fun u _ => ?_
    dsimp only
    split
    · exact (steady_addEmpty _).bind fun _ hi => steady_cons (ih.blockSequence _) hi
    · exact (steady_addEmpty _).bind fun _ hi => steady_cons (ih.blockSequence _) hi
    · exact (ih.node _ _).bind fun _ hi => steady_cons (ih.blockSequence _) hi
  · exact steady_nil
  · exact steady_throw _

theorem steady_indentlessSequence (ih : AllSteady key key' fuel) :
    Steady key key' (fun is => ∀ i ∈ is, 5 ≤ i) (indentlessSequence (fuel + 1)) := by
  rw [indentlessSequence]
  refine steady_peek.bind fun t _ => ?_
  split
  · refine steady_take.bind fun _ _ => steady_peek.bind fun u _ => ?_
    have hrest := ih.indentlessSequence
    dsimp only
    split
    · exact (steady_addEmpty _).bind fun _ hi => steady_cons hrest hi
    · exact (steady_addEmpty _).bind fun _ hi => steady_cons hrest hi
    · exact (steady_addEmpty _).bind fun _ hi => steady_cons hrest hi
    · exact (steady_addEmpty _).bind fun _ hi => steady_cons hrest hi
    · exact (ih.node _ _).bind fun _ hi => steady_cons hrest hi
  · exact steady_pure (by simp)

theorem steady_blockMapping (ih : AllSteady key key' fuel) (start : Mark) :
    Steady key key' (fun es => ∀ e ∈ es, 5 ≤ e.1 ∧ 5 ≤ e.2) (blockMapping (fuel + 1) start) := by
  rw [blockMapping]
  refine steady_peek.bind fun t _ => ?_
  split
  · refine steady_take.bind fun _ _ => (ih.blockPart _).bind fun k hk => steady_peek.bind fun u _ => ?_
    dsimp only
    split
    · exact steady_take.bind fun _ _ => (ih.blockPart _).bind fun _ hv =>
        steady_cons (ih.blockMapping _) ⟨hk, hv⟩
    · exact (steady_addEmpty _).bind fun _ hv => steady_cons (ih.blockMapping _) ⟨hk, hv⟩
  · exact steady_nil
  · exact steady_throw _

theorem steady_blockPart (ih : AllSteady key key' fuel) (finish : Mark) :
    Steady key key' (5 ≤ ·) (blockPart (fuel + 1) finish) := by
  rw [blockPart]
  refine steady_peek.bind fun t _ => ?_
  split
  · exact steady_addEmpty _
  · exact steady_addEmpty _
  · exact steady_addEmpty _
  · exact ih.node _ _

/-- An item of a list is read behind a comma as the first one is. -/
theorem steady_flowItem (ih : AllSteady key key' fuel) (start : Mark) :
    Steady key key' (fun is => ∀ i ∈ is, 5 ≤ i) (do
      let t ← peek
      match t.kind with
      | .flowSequenceEnd =>
        take
        pure []
      | .key =>
        let i ← add ⟨mapTag, .mapping [], t.start⟩
        take
        let key ← flowPart fuel .flowSequenceEnd true t.finish
        let value ← flowValue fuel .flowSequenceEnd
        fill i (.mapping [(key, value)])
        pure (i :: (← flowSequence fuel start false))
      | _ =>
        let i ← node fuel false false
        pure (i :: (← flowSequence fuel start false))) := by
  refine steady_peek.bind fun t _ => ?_
  split
  · exact steady_nil
  · refine (steady_add (by simp [Content.IsLater])).bind fun i hi => steady_take.bind fun _ _ =>
      (ih.flowPart _ _ _).bind fun k hk => (ih.flowValue _).bind fun v hv => ?_
    exact (steady_fill hi (by simpa [Content.IsLater] using ⟨hk, hv⟩)).bind fun _ _ =>
      steady_cons (ih.flowSequence _ _) hi
  · exact (ih.node _ _).bind fun _ hi => steady_cons (ih.flowSequence _ _) hi

theorem steady_flowSequence (ih : AllSteady key key' fuel) (start : Mark) (first : Bool) :
    Steady key key' (fun is => ∀ i ∈ is, 5 ≤ i) (flowSequence (fuel + 1) start first) := by
  rw [flowSequence]
  refine steady_peek.bind fun t _ => ?_
  split
  · exact steady_nil
  · dsimp only
    split
    · exact steady_flowItem ih start
    · split
      · exact steady_take.bind fun _ _ => steady_flowItem ih start
      · exact steady_throw _

/-- An entry of a mapping is read behind a comma as the first one is. -/
theorem steady_flowEntry (ih : AllSteady key key' fuel) (start : Mark) :
    Steady key key' (fun es => ∀ e ∈ es, 5 ≤ e.1 ∧ 5 ≤ e.2) (do
      let t ← peek
      match t.kind with
      | .flowMappingEnd =>
        take
        pure []
      | .key =>
        take
        let key ← flowPart fuel .flowMappingEnd true t.finish
        let value ← flowValue fuel .flowMappingEnd
        pure ((key, value) :: (← flowMapping fuel start false))
      | _ =>
        let key ← node fuel false false
        let value ← addEmpty (← peek).start
        pure ((key, value) :: (← flowMapping fuel start false))) := by
  refine steady_peek.bind fun t _ => ?_
  split
  · exact steady_nil
  · exact steady_take.bind fun _ _ => (ih.flowPart _ _ _).bind fun k hk =>
      (ih.flowValue _).bind fun v hv => steady_cons (ih.flowMapping _ _) ⟨hk, hv⟩
  · exact (ih.node _ _).bind fun k hk => steady_peek.bind fun u _ => (steady_addEmpty _).bind
      fun v hv => steady_cons (ih.flowMapping _ _) ⟨hk, hv⟩

theorem steady_flowMapping (ih : AllSteady key key' fuel) (start : Mark) (first : Bool) :
    Steady key key' (fun es => ∀ e ∈ es, 5 ≤ e.1 ∧ 5 ≤ e.2) (flowMapping (fuel + 1) start first) := by
  rw [flowMapping]
  refine steady_peek.bind fun t _ => ?_
  split
  · exact steady_nil
  · dsimp only
    split
    · exact steady_flowEntry ih start
    · split
      · exact steady_take.bind fun _ _ => steady_flowEntry ih start
      · exact steady_throw _

theorem steady_flowPart (ih : AllSteady key key' fuel) (closing : TokenKind) (isKey : Bool)
    (finish : Mark) : Steady key key' (5 ≤ ·) (flowPart (fuel + 1) closing isKey finish) := by
  rw [flowPart]
  refine steady_peek.bind fun t _ => ?_
  dsimp only
  split
  · exact steady_addEmpty _
  · exact ih.node _ _

theorem steady_flowValue (ih : AllSteady key key' fuel) (closing : TokenKind) :
    Steady key key' (5 ≤ ·) (flowValue (fuel + 1) closing) := by
  rw [flowValue]
  refine steady_peek.bind fun t _ => ?_
  split
  · exact steady_take.bind fun _ _ => ih.flowPart _ _ _
  · exact steady_addEmpty _

theorem allSteady (key key' : List Char) (fuel : Nat) : AllSteady key key' fuel := by
  induction fuel with
  | zero =>
    constructor
    all_goals intros
    all_goals exact steady_throw _
  | succ fuel ih =>
    exact ⟨steady_node ih, steady_blockSequence ih, steady_indentlessSequence ih,
      steady_blockMapping ih, steady_blockPart ih, steady_flowSequence ih, steady_flowMapping ih,
      steady_flowPart ih, steady_flowValue ih⟩

/-! ## Documents -/

theorem steady_directives (key key' : List Char) (fuel : Nat) :
    ∀ version, Steady key key' (fun _ => True) (directives fuel version) := by
  induction fuel with
  | zero => exact fun _ => steady_pure trivial
  | succ fuel ih =>
    intro version
    rw [directives]
    refine steady_peek.bind fun t _ => ?_
    split
    · refine steady_take.bind fun _ _ => ?_
      dsimp only
      split
      · exact steady_throw _
      · split
        · exact steady_throw _
        · exact ih true
    · refine steady_take.bind fun _ _ => lockstep_get ?_
      rintro _ _ ⟨hg, ha⟩
      dsimp only
      split
      · exact .error _
      · refine Steady.bind (Q := fun _ => True) (steady_modify ?_) (fun _ _ => ih version) _ _ ⟨hg, ha⟩
        rintro _ _ ⟨hg, ha⟩
        exact ⟨hg, ha⟩
    · exact steady_take.bind fun _ _ => ih version
    · exact steady_pure trivial

theorem steady_documentStart (key key' : List Char) :
    Steady key key' (fun _ => True) documentStart := by
  unfold documentStart
  refine (steady_modify ?_).bind fun _ _ => lockstep_get ?_
  · rintro _ _ ⟨hg, ha⟩
    exact ⟨hg, ha⟩
  · rintro _ _ ⟨hg, ha⟩
    dsimp only
    refine Steady.bind (Q := fun _ => True) (steady_directives key key' _ _) (fun _ _ => ?_) _ _ ⟨hg, ha⟩
    refine (steady_modify ?_).bind fun _ _ => steady_peek.bind fun t _ => ?_
    · rintro _ _ ⟨hg, ha⟩
      exact ⟨hg, ha⟩
    · split
      · exact steady_take
      · exact steady_throw _

theorem steady_skipDocumentEnds (key key' : List Char) (fuel : Nat) :
    Steady key key' (fun _ => True) (skipDocumentEnds fuel) := by
  induction fuel with
  | zero => exact steady_pure trivial
  | succ fuel ih =>
    rw [skipDocumentEnds]
    refine steady_peek.bind fun t _ => ?_
    split
    · exact steady_take.bind fun _ _ => ih
    · exact steady_pure trivial

/-! ## The head -/

variable {ts : List Token} {fault? : Option Fault} {handles : List (String × String)}

/-- The entries of the topmost mapping start with the type and the private key. -/
def TopEntries (es : List (Nat × Nat)) : Prop :=
  ∃ es', es = (1, 2) :: (3, 4) :: es' ∧ ∀ e ∈ es', 5 ≤ e.1 ∧ 5 ≤ e.2

/-- The graph after the private key. -/
def headGraph (key : List Char) : Graph :=
  #[⟨mapTag, .mapping [], ⟨0, 0, 0⟩⟩, ⟨strTag, .scalar "type".toList, ⟨0, 0, 0⟩⟩,
    ⟨strTag, .scalar "file-raw".toList, ⟨6, 0, 6⟩⟩, ⟨strTag, .scalar "privateKey".toList, ⟨15, 1, 0⟩⟩,
    ⟨strTag, .scalar key, quoteMark⟩]

theorem twin_headGraph (key key' : List Char) : Graph.Twin key key' (headGraph key) (headGraph key') where
  size := rfl
  same := by
    intro i hi
    match i, hi with
    | 0, _ | 1, _ | 2, _ | 3, _ | _ + 5, _ => rfl
  key := ⟨quoteMark, rfl, rfl⟩
  top := ⟨_, [], rfl, rfl, rfl, by simp⟩
  typeKey := ⟨_, rfl, rfl, rfl⟩
  typeValue := ⟨_, rfl, rfl, rfl⟩
  keyKey := ⟨_, rfl, rfl, rfl⟩
  later := by
    intro i n hi hn
    have hsize : i < 5 := (Array.getElem?_eq_some_iff.1 hn).1
    omega

/-- The tokens of the first line, which has a plain value, and of a key. -/
theorem run_blockMapping_key {l : Line} {b : Token} {m : Mark} {g : Graph}
    {anchors : List (String × Nat)} {fuel : Nat} {start : Mark} (hl : l.IsTextual)
    (hb : b.kind = .scalar l.value l.style.isPlain) :
    (blockMapping (fuel + 3) start).run
        ⟨Scan.keyTokens true l.key m ++ b :: ts, fault?, g, anchors, handles⟩ =
      (do pure ((g.size, g.size + 1) :: (← blockMapping (fuel + 2) start))).run ⟨ts, fault?,
        (g.push ⟨strTag, .scalar l.key, m⟩).push ⟨strTag, .scalar l.value, b.start⟩, anchors,
          handles⟩ :=
  run_blockMapping_entry hl (by rw [List.map_cons, List.map_cons, List.map_cons, List.map_cons, hb]; rfl)

theorem run_blockMapping_head {key : List Char} (hkey : IsWord key) (fuel : Nat) (start : Mark) :
    (blockMapping (fuel + 4) start).run ⟨tokensBeforeKey.drop 1 ++ keyToken key :: ts, fault?,
        #[⟨mapTag, .mapping [], ⟨0, 0, 0⟩⟩], [], handles⟩ =
      (do pure ((1, 2) :: (3, 4) :: (← blockMapping (fuel + 2) start))).run
        ⟨ts, fault?, headGraph key, [], handles⟩ := by
  have htype : (⟨"type".toList, "file-raw".toList, .plain⟩ : Line).IsTextual :=
    ⟨⟨by decide, by decide, by decide, fun _ => by decide⟩, by decide +kernel,
      fun _ => by decide +kernel⟩
  have hword : IsPlainWord "privateKey".toList := by decide
  have hshort : "privateKey".toList.length ≤ Scan.keyReach := by decide
  have htext : resolve metadataTags "privateKey".toList = strTag := by decide +kernel
  have hprivate : (⟨"privateKey".toList, key, .quoted .double⟩ : Line).IsTextual :=
    ⟨⟨hword, hshort, hkey, nofun⟩, htext, nofun⟩
  refine (run_blockMapping_key (m := ⟨0, 0, 0⟩) (b := ⟨_, ⟨6, 0, 6⟩, ⟨15, 1, 0⟩⟩) htype rfl).trans ?_
  rw [StateT.run_bind]
  refine (congrArg (· >>= _)
    (run_blockMapping_key (m := ⟨15, 1, 0⟩) (b := keyToken key) hprivate rfl)).trans ?_
  rw [StateT.run_bind, bind_assoc]
  rfl

/-- After the private key, the entries of the topmost mapping are composed in lockstep. -/
theorem blockMapping_head {key key' : List Char} (hkey : IsWord key) (hkey' : IsWord key')
    (fuel : Nat) (start : Mark) :
    Alike (fun r r' => (r'.1 = r.1 ∧ TopEntries r.1) ∧ Draft.Twin key key' r.2 r'.2)
      ((blockMapping (fuel + 4) start).run ⟨tokensBeforeKey.drop 1 ++ keyToken key :: ts, fault?,
        #[⟨mapTag, .mapping [], ⟨0, 0, 0⟩⟩], [], handles⟩)
      ((blockMapping (fuel + 4) start).run ⟨tokensBeforeKey.drop 1 ++ keyToken key' :: ts, fault?,
        #[⟨mapTag, .mapping [], ⟨0, 0, 0⟩⟩], [], handles⟩) := by
  have hsteady : Steady key key' TopEntries
      (do pure ((1, 2) :: (3, 4) :: (← blockMapping (fuel + 2) start))) :=
    ((allSteady key key' (fuel + 2)).blockMapping start).bind fun es hes => steady_pure ⟨es, rfl, hes⟩
  rw [run_blockMapping_head hkey, run_blockMapping_head hkey']
  exact hsteady _ _ ⟨twin_headGraph key key', by simp⟩

theorem steady_fillTop {es : List (Nat × Nat)} (hes : TopEntries es) :
    Steady key key' (fun _ => True) (fill 0 (.mapping es)) := by
  refine steady_modify fun _ _ ⟨hg, ha⟩ => ⟨hg.setTop ?_, ha⟩
  obtain ⟨es', rfl, hes'⟩ := hes
  exact List.forall_mem_cons.2 ⟨.inl rfl, List.forall_mem_cons.2 ⟨.inr (.inl rfl),
    fun e he => .inr (.inr (hes' e he))⟩⟩

/-- The topmost mapping is composed in lockstep. -/
theorem node_head {key key' : List Char} (hkey : IsWord key) (hkey' : IsWord key') (fuel : Nat) :
    Alike (fun r r' => (r'.1 = r.1 ∧ r.1 = 0) ∧ Draft.Twin key key' r.2 r'.2)
      ((node (fuel + 5) true false).run
        ⟨tokensBeforeKey ++ keyToken key :: ts, fault?, #[], [], handles⟩)
      ((node (fuel + 5) true false).run
        ⟨tokensBeforeKey ++ keyToken key' :: ts, fault?, #[], [], handles⟩) := by
  have hopen (key : List Char) : (node (fuel + 5) true false).run
      ⟨tokensBeforeKey ++ keyToken key :: ts, fault?, #[], [], handles⟩ =
      (do fill 0 (.mapping (← blockMapping (fuel + 4) ⟨0, 0, 0⟩)); pure 0).run
        ⟨tokensBeforeKey.drop 1 ++ keyToken key :: ts, fault?,
          #[⟨mapTag, .mapping [], ⟨0, 0, 0⟩⟩], [], handles⟩ :=
    run_node_mapping (t := ⟨.blockMappingStart, ⟨0, 0, 0⟩, ⟨0, 0, 0⟩⟩) rfl
  rw [hopen, hopen, StateT.run_bind, StateT.run_bind]
  refine (blockMapping_head hkey hkey' fuel _).bind ?_
  rintro ⟨es, d⟩ ⟨_, d'⟩ ⟨⟨rfl, hes⟩, hd⟩
  exact (steady_fillTop hes).bind (Q := (· = 0)) (fun _ _ => steady_pure rfl) d d' hd

/-- What comes after the root of a document, which has to be the only one. -/
def afterRoot (fuel root : Nat) : Build (Option Nat) := do
  skipDocumentEnds fuel
  let t ← peek
  if t.kind == .streamEnd then pure (some root)
  else
    documentStart
    let start := (((← get).nodes[root]?).map (·.start)).getD t.start
    throw (.inside .composer "expected a single document in the stream" start
      "but found another document" t.start)

theorem steady_afterRoot (key key' : List Char) (fuel root : Nat) :
    Steady key key' (· = some root) (afterRoot fuel root) := by
  refine (steady_skipDocumentEnds key key' _).bind fun _ _ => steady_peek.bind fun t _ => ?_
  split
  · exact steady_pure rfl
  · refine (steady_documentStart key key').bind fun _ _ => lockstep_get ?_
    rintro _ _ ⟨hg, ha⟩
    dsimp only
    rw [hg.map_eq (f := fun n : Node => n.start) fun _ _ _ _ => rfl]
    exact .error _

theorem document_head {key key' : List Char} (hkey : IsWord key) (hkey' : IsWord key') (fuel : Nat) :
    Alike (fun r r' => (r'.1 = r.1 ∧ r.1 = some 0) ∧ Draft.Twin key key' r.2 r'.2)
      ((document (fuel + 5)).run ⟨tokensBeforeKey ++ keyToken key :: ts, fault?, #[], [], handles⟩)
      ((document (fuel + 5)).run ⟨tokensBeforeKey ++ keyToken key' :: ts, fault?, #[], [], handles⟩) := by
  have hopen (key : List Char) : (document (fuel + 5)).run
      ⟨tokensBeforeKey ++ keyToken key :: ts, fault?, #[], [], handles⟩ =
      (do afterRoot (fuel + 5) (← node (fuel + 5) true false)).run
        ⟨tokensBeforeKey ++ keyToken key :: ts, fault?, #[], [], handles⟩ := by
    rw [document]
    rfl
  rw [hopen, hopen, StateT.run_bind, StateT.run_bind]
  refine (node_head hkey hkey' fuel).bind ?_
  rintro ⟨root, d⟩ ⟨root', d'⟩ ⟨⟨hroot', hroot⟩, hd⟩
  obtain rfl : root = 0 := hroot
  obtain rfl : root' = 0 := hroot'
  exact steady_afterRoot key key' _ 0 d d' hd

end Build

/-- Texts that start with private keys of one length compose to the same fault, or to graphs that
differ in the private key. -/
theorem compose_head {key key' : List Char} (hkey : IsWord key) (hkey' : IsWord key')
    (hlength : key'.length = key.length) (more : List Char) :
    Alike (fun r r' => (r'.2 = r.2 ∧ r.2 = some 0) ∧ Graph.Twin key key' r.1 r'.1)
      (compose (head key ++ more)) (compose (head key' ++ more)) := by
  rcases tokens_head key.length more with ⟨c, position, htokens⟩ | ⟨ts, fault?, htokens⟩
  · unfold compose
    rw [htokens key hkey rfl, htokens key' hkey' hlength]
    exact .error _
  · unfold compose
    rw [htokens key hkey rfl, htokens key' hkey' hlength]
    -- The fuel is the same for both, since it counts tokens.
    have hcount (key : List Char) : 4 * (tokensBeforeKey ++ keyToken key :: ts).length + 4 =
        4 * ts.length + 35 + 5 := by
      rw [List.length_append, List.length_cons]
      change 4 * (8 + (ts.length + 1)) + 4 = _
      omega
    dsimp only
    rw [hcount, hcount]
    refine (Build.document_head hkey hkey' _).bind ?_
    rintro ⟨root?, _⟩ ⟨_, _⟩ ⟨hroot, ⟨hg, -⟩⟩
    exact .ok ⟨hroot, hg⟩

end Keyring.Yaml
