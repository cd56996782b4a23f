import Keyring.Failure.Basic
import Mathlib.Data.List.Nodup
import Mathlib.Data.List.Perm.Subperm
/-!
# Where chains of failures end

`Links` says which failure a chain goes on with, and `Follows` how it is followed, without a limit on
the steps: up to a failure that links to none or to one that has been passed. Chains may run into
cycles; the failures passed are all different and lie in the graph, so there is an end
(`exists_follows`). The root is the last failure of the longest path without repetitions
(`root_isLast`). A failure that wraps another is put in front of its chain and leaves the root where it
is (`rootNode_wrap`).
-/

namespace Keyring.Failure

/-! ## Links -/

theorem Node.next?_eq_some {n : Node} {j : Nat} : n.next? = some j ↔
    n.cause? = some j ∨ n.cause? = none ∧ n.suppress = false ∧ n.context? = some j := by
  cases hc : n.cause? <;> cases hs : n.suppress <;> simp [Node.next?, hc, hs]

namespace Graph

variable {g : Graph} {i j : Nat} {seen rest path : List Nat}

/-- The chain goes on from `i` with `j`: that is the cause of `i`, or `i` has no cause, and `j` is its
context, which is not suppressed. -/
def Links (g : Graph) (i j : Nat) : Prop :=
  j < g.length ∧ ∃ n, g[i]? = some n ∧
    (n.cause? = some j ∨ n.cause? = none ∧ n.suppress = false ∧ n.context? = some j)

theorem next?_eq_some : g.next? i = some j ↔ g.Links i j := by
  simp only [next?, Links, Option.filter_eq_some_iff, Option.bind_eq_some_iff, Node.next?_eq_some,
    decide_eq_true_eq]
  exact and_comm

theorem Links.unique {j' : Nat} (h : g.Links i j) (h' : g.Links i j') : j = j' :=
  Option.some.inj ((next?_eq_some.2 h).symm.trans (next?_eq_some.2 h'))

/-! ## Following a chain -/

/-- At `i`, with the failures in `seen` passed, the chain is followed through `rest` and no further: the
last failure links to none, or to one that has been passed. -/
inductive Follows (g : Graph) : (seen : List Nat) → (i : Nat) → (rest : List Nat) → Prop
  | stop {seen : List Nat} {i : Nat} : (∀ j, g.Links i j → j ∈ seen) → Follows g seen i []
  | go {seen : List Nat} {i j : Nat} {rest : List Nat} : g.Links i j → j ∉ seen →
      Follows g (j :: seen) j rest → Follows g seen i (j :: rest)

/-- The failures passed are failures of the graph, none of them twice. -/
structure Passed (g : Graph) (seen : List Nat) : Prop where
  nodup : seen.Nodup
  lt : ∀ j ∈ seen, j < g.length

theorem Passed.cons (hseen : g.Passed seen) (hij : g.Links i j) (hj : j ∉ seen) :
    g.Passed (j :: seen) where
  nodup := List.nodup_cons.2 ⟨hj, hseen.nodup⟩
  lt := List.forall_mem_cons.2 ⟨hij.1, hseen.lt⟩

theorem Passed.subperm (hseen : g.Passed seen) : seen.Subperm (List.range g.length) :=
  List.subperm_of_subset hseen.nodup fun j hj => List.mem_range.2 (hseen.lt j hj)

/-- No more failures are passed than there are. -/
theorem Passed.length_le (hseen : g.Passed seen) : seen.length ≤ g.length := by
  simpa using hseen.subperm.length_le

/-- If as many failures have been passed as there are, then all have been. -/
theorem Passed.mem_of_length_le (hseen : g.Passed seen) (hlength : g.length ≤ seen.length)
    (hj : j < g.length) : j ∈ seen := by
  have hperm : seen.Perm (List.range g.length) :=
    hseen.subperm.perm_of_length_le (by simpa using hlength)
  exact hperm.mem_iff.2 (List.mem_range.2 hj)

theorem Follows.passed (h : g.Follows seen i rest) (hseen : g.Passed seen) :
    g.Passed (rest.reverse ++ seen) := by
  induction h with
  | stop _ => exact hseen
  | go hij hj _ ih => simpa using ih (hseen.cons hij hj)

theorem Follows.isChain (h : g.Follows seen i rest) : (i :: rest).IsChain g.Links := by
  induction h with
  | stop _ => exact List.IsChain.singleton _
  | go hij _ _ ih => exact List.isChain_cons_cons.2 ⟨hij, ih⟩

/-- Any other path that avoids the failures passed is a part of the one that is followed. -/
theorem Follows.longest (h : g.Follows seen i rest) {other : List Nat}
    (hchain : (i :: other).IsChain g.Links) (hnodup : (other.reverse ++ seen).Nodup) :
    other <+: rest := by
  induction h generalizing other with
  | stop hstop =>
    cases other with
    | nil => exact List.nil_prefix
    | cons j other =>
      have hj := hstop j (List.isChain_cons_cons.1 hchain).1
      exact absurd hj (List.disjoint_of_nodup_append hnodup (by simp))
  | go hij hj _ ih =>
    cases other with
    | nil => exact List.nil_prefix
    | cons k other =>
      obtain ⟨hik, hchain⟩ := List.isChain_cons_cons.1 hchain
      obtain rfl := hij.unique hik
      exact List.cons_prefix_cons.2 ⟨rfl, ih hchain (by simpa using hnodup)⟩

/-- Where the chain is left, it leads nowhere or back. -/
theorem Follows.ends (h : g.Follows seen i rest) (hj : g.Links ((i :: rest).getLast (by simp)) j) :
    j ∈ rest.reverse ++ seen := by
  induction h with
  | stop hstop => exact hstop j (by simpa using hj)
  | go _ _ _ ih => simpa using ih (by simpa using hj)

/-- With a step for every failure that has not been passed, the chain is followed to its end. -/
theorem exists_follows {steps : Nat} (hseen : g.Passed seen) (hsteps : g.length ≤ seen.length + steps) :
    ∃ rest, g.Follows seen i rest ∧ g.rootFrom steps seen i = (i :: rest).getLast (by simp) := by
  -- The failures passed become more with every step, so the limit is reached only when all are passed.
  induction steps generalizing seen i with
  | zero => exact ⟨[], .stop fun j hij => hseen.mem_of_length_le hsteps hij.1, rfl⟩
  | succ steps ih =>
    cases hnext : g.next? i with
    | none =>
      refine ⟨[], .stop fun j hij => ?_, by simp [rootFrom, hnext]⟩
      rw [next?_eq_some.2 hij] at hnext
      cases hnext
    | some j =>
      have hij := next?_eq_some.1 hnext
      by_cases hj : j ∈ seen
      · refine ⟨[], .stop fun k hik => ?_, by simp [rootFrom, hnext, hj]⟩
        rwa [← hij.unique hik]
      · have hsteps : g.length ≤ (j :: seen).length + steps := by
          rw [List.length_cons]
          omega
        obtain ⟨rest, hfollows, hroot⟩ := ih (i := j) (hseen.cons hij hj) hsteps
        exact ⟨j :: rest, .go hij hj hfollows, by simp [rootFrom, hnext, hj, hroot]⟩

/-- The failures on the way from `i`, each linked to the next and none of them twice. -/
structure IsPath (g : Graph) (i : Nat) (path : List Nat) : Prop where
  head : path.head? = some i
  links : path.IsChain g.Links
  nodup : path.Nodup

theorem passed_singleton (hi : i < g.length) : g.Passed [i] :=
  ⟨List.nodup_singleton i, by simpa using hi⟩

end Graph

/-! ## The root -/

/-- The path on which the root of `f` is found: the longest there is, and of no more failures than there
are. The root is its last one and leads nowhere, or back to the path. -/
structure IsRootPath (f : Failure) (path : List Nat) : Prop where
  isPath : f.nodes.IsPath f.top path
  longest : ∀ other, f.nodes.IsPath f.top other → other <+: path
  follows : ∃ rest, path = f.top :: rest ∧ f.nodes.Follows [f.top] f.top rest
  length_le : path.length ≤ f.nodes.length
  last : path.getLast? = some f.rootIndex
  ends : ∀ j, f.nodes.Links f.rootIndex j → j ∈ path

theorem exists_isRootPath (f : Failure) : ∃ path, f.IsRootPath path := by
  have hseen := Graph.passed_singleton f.top_lt
  obtain ⟨rest, hfollows, hroot⟩ := Graph.exists_follows (i := f.top) hseen (Nat.le_add_left _ _)
  have hpassed := hfollows.passed hseen
  have hperm : (rest.reverse ++ [f.top]).Perm (f.top :: rest) := by
    simpa using (f.top :: rest).reverse_perm
  refine ⟨f.top :: rest, ⟨⟨rfl, hfollows.isChain, hperm.nodup_iff.1 hpassed.nodup⟩, ?_,
    ⟨rest, rfl, hfollows⟩, by simpa using hpassed.length_le, ?_, ?_⟩⟩
  · rintro other ⟨hhead, hlinks, hnodup⟩
    obtain ⟨other, rfl⟩ := List.head?_eq_some_iff.1 hhead
    refine List.cons_prefix_cons.2 ⟨rfl, hfollows.longest hlinks ?_⟩
    have := List.nodup_reverse.2 hnodup
    rwa [List.reverse_cons] at this
  · rw [rootIndex, Graph.root, hroot]
    exact List.getLast?_eq_some_getLast _
  · intro j hj
    rw [rootIndex, Graph.root, hroot] at hj
    exact hperm.mem_iff.1 (hfollows.ends hj)

/-- The root is a failure of the graph. -/
theorem rootIndex_lt (f : Failure) : f.rootIndex < f.nodes.length := by
  obtain ⟨path, hpath⟩ := f.exists_isRootPath
  obtain ⟨rest, rfl, hfollows⟩ := hpath.follows
  have hpassed := hfollows.passed (Graph.passed_singleton f.top_lt)
  exact hpassed.lt _ (by simpa [or_comm] using List.mem_of_getLast? hpath.last)

theorem getElem?_rootIndex (f : Failure) : f.nodes[f.rootIndex]? = some f.rootNode := by
  rw [rootNode, List.getElem?_eq_getElem f.rootIndex_lt]
  rfl

/-! ## The text of the root -/

theorem rootMessage_of_text {f : Failure} {s : String} (hs : f.rootNode.message = .text s) :
    f.rootMessage = .ok (if s = "" then f.rootNode.kind.name else s) := by
  rw [rootMessage, Graph.caption, hs]

theorem rootMessage_of_unprintable {f : Failure} (hs : f.rootNode.message = .unprintable) :
    f.rootMessage = .error (f.nodes.refusal f.rootNode) := by
  rw [rootMessage, Graph.caption, hs]

/-- Where the root has no text, its class has a name. -/
theorem rootMessage_ne_empty {f : Failure} {m : String} (hm : f.rootMessage = .ok m) : m ≠ "" := by
  cases hs : f.rootNode.message with
  | unprintable =>
    rw [rootMessage_of_unprintable hs] at hm
    cases hm
  | text s =>
    obtain rfl := Except.ok.inj ((rootMessage_of_text hs).symm.trans hm)
    split
    · exact f.rootNode.kind.name_ne_empty
    · assumption

/-- However the failures of a graph are linked, the search for the root comes to an end. It passes the
longest path without repetitions, and the last failure of that is the root; what a log shows is the text
of the root, or the name of its class, and never nothing. -/
theorem root_isLast (f : Failure) :
    (∃! path, f.IsRootPath path) ∧ f.nodes[f.rootIndex]? = some f.rootNode ∧
      (∀ s, f.rootNode.message = .text s →
        f.rootMessage = .ok (if s = "" then f.rootNode.kind.name else s)) ∧
      (f.rootNode.message = .unprintable → ∃ g, f.rootMessage = .error g) ∧
      ∀ m, f.rootMessage = .ok m → m ≠ "" := by
  obtain ⟨path, hpath⟩ := f.exists_isRootPath
  have hunique : ∀ other, f.IsRootPath other → other = path := fun other hother =>
    (hpath.longest other hother.isPath).eq_of_length_le (hother.longest path hpath.isPath).length_le
  exact ⟨⟨path, hpath, hunique⟩, f.getElem?_rootIndex, fun _ => rootMessage_of_text,
    fun hs => ⟨_, rootMessage_of_unprintable hs⟩, fun _ => rootMessage_ne_empty⟩

/-- A chain that runs into a cycle ends before the failure at which it got there. -/
example : (⟨[{ kind := .general, message := .text "a", cause? := some 1 },
    { kind := .general, message := .text "b", context? := some 2 },
    { kind := .value, message := .text "", cause? := some 1, context? := some 0 }], 0, by decide⟩ :
      Failure).rootMessage = .ok "ValueError" := rfl

/-! ## Failures in front of a chain -/

namespace Graph

variable {g : Graph} {i : Nat} {w : Node}

/-- Once it has been passed, a failure behind all others plays no part: the chain does not come back
to it. -/
theorem rootFrom_concat (w : Node) {steps : Nat} (seen : List Nat) (hi : i < g.length) :
    rootFrom (g ++ [w]) steps (seen ++ [g.length]) i = g.rootFrom steps seen i := by
  induction steps generalizing seen i with
  | zero => rfl
  | succ steps ih =>
    have hnext : next? (g ++ [w]) i = (g[i]?.bind Node.next?).filter (· < g.length + 1) := by
      rw [next?, List.getElem?_append_left hi, List.length_append, List.length_singleton]
    rw [rootFrom, rootFrom, hnext, next?]
    cases g[i]?.bind Node.next? with
    | none => rfl
    | some j =>
      rcases Nat.lt_trichotomy j g.length with hj | rfl | hj
      · have hcontains : (seen ++ [g.length]).contains j = seen.contains j := by
          simp [Nat.ne_of_lt hj]
        simp only [Option.filter_some, hj, Nat.lt_succ_of_lt hj, decide_true, if_true, hcontains]
        split
        · rfl
        · exact ih (j :: seen) hj
      · -- A link of no failure in the graph leads to the new one, which has been passed.
        simp [Option.filter_some]
      · have hfar : ¬ j < g.length + 1 := by omega
        have hout : ¬ j < g.length := by omega
        simp only [Option.filter_some, hfar, hout, decide_false, Bool.false_eq_true, if_false]

/-- The root is found from a failure in front of the chain as well. -/
theorem root_concat (hw : w.next? = some i) (hi : i < g.length) :
    root (g ++ [w]) g.length = g.root i := by
  have hnext : next? (g ++ [w]) g.length = some i := by
    have hlt : i < (g ++ [w]).length := by
      rw [List.length_append]
      omega
    rw [next?, List.getElem?_concat_length, Option.bind_some, hw, Option.filter_some,
      if_pos (by simpa using hlt)]
  rw [root, List.length_append, List.length_singleton, rootFrom, hnext]
  simp only [List.contains_cons, List.contains_nil, Bool.or_false, beq_iff_eq, Nat.ne_of_lt hi,
    if_false]
  exact rootFrom_concat w [i] hi

end Graph

variable {kind : FailureClass} {text : String}

@[simp] theorem rootIndex_wrap (f : Failure) : (f.wrap kind text).rootIndex = f.rootIndex :=
  Graph.root_concat rfl f.top_lt

@[simp] theorem rootNode_wrap (f : Failure) : (f.wrap kind text).rootNode = f.rootNode := by
  have hroot := (f.wrap kind text).getElem?_rootIndex
  rw [rootIndex_wrap, wrap, List.getElem?_append_left f.rootIndex_lt, getElem?_rootIndex] at hroot
  exact (Option.some.inj hroot).symm

/-- What a log shows of a failure it shows of the one that wraps it. -/
theorem rootMessage_wrap {f : Failure} {m : String} (hm : f.rootMessage = .ok m) :
    (f.wrap kind text).rootMessage = .ok m := by
  cases hs : f.rootNode.message with
  | unprintable =>
    rw [rootMessage_of_unprintable hs] at hm
    cases hm
  | text s =>
    rw [rootMessage_of_text (by rw [rootNode_wrap, hs]), rootNode_wrap, ← rootMessage_of_text hs, hm]

end Keyring.Failure
