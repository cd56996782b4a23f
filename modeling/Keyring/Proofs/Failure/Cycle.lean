import Keyring.Proofs.Failure.Chain
import Mathlib.Data.List.Chain
import Mathlib.Data.List.Cycle
/-!
# Roots of roots

A chain that ends, or that runs into a failure linked to itself, leads to one root, and that is its own
root. A chain that runs into a longer cycle is cut before the failure at which it got there, and from
that failure on the search runs through the cycle again, to another root: on a cycle the root is the
failure before (`root_cycle`). So a root is its own root exactly if the chain comes to rest
(`root_idempotent_iff`).
-/

namespace Keyring.Failure

namespace Graph

variable {g : Graph} {i j x y : Nat} {rest : List Nat}

/-- The chain from `i` comes to a failure that links to none. -/
def Ends (g : Graph) (i : Nat) : Prop :=
  ∃ j, Relation.ReflTransGen g.Links i j ∧ ∀ k, ¬ g.Links j k

/-- The chain from `i` comes to a failure that is linked to itself. -/
def RunsIntoItself (g : Graph) (i : Nat) : Prop :=
  ∃ j, Relation.ReflTransGen g.Links i j ∧ g.Links j j

/-- The chain from `i` comes to `j` and goes nowhere from there. -/
def RestsAt (g : Graph) (i j : Nat) : Prop :=
  Relation.ReflTransGen g.Links i j ∧ ∀ k, g.Links j k → k = j

theorem ends_or_runsIntoItself_iff : g.Ends i ∨ g.RunsIntoItself i ↔ ∃ j, g.RestsAt i j := by
  constructor
  · rintro (⟨j, hreach, hnone⟩ | ⟨j, hreach, hself⟩)
    · exact ⟨j, hreach, fun k hk => absurd hk (hnone k)⟩
    · exact ⟨j, hreach, fun k hk => hk.unique hself⟩
  · rintro ⟨j, hreach, hrest⟩
    by_cases hself : g.Links j j
    · exact .inr ⟨j, hreach, hself⟩
    · exact .inl ⟨j, hreach, fun k hk => hself (hrest k hk ▸ hk)⟩

theorem Links.lt (h : g.Links i j) : i < g.length := by
  obtain ⟨-, n, hn, -⟩ := h
  exact (List.getElem?_eq_some_iff.1 hn).1

/-- What is no failure of the graph links to none. -/
theorem root_of_length_le (hi : g.length ≤ i) : g.root i = i := by
  have hnext : g.next? i = none := by
    rw [next?, List.getElem?_eq_none hi]
    rfl
  rw [root]
  cases g.length <;> simp [rootFrom, hnext]

end Graph

open Failure.Graph

/-! ## The path to the root -/

namespace IsRootPath

variable {f : Failure} {path : List Nat} {x y : Nat}

/-- A failure on the path is the root, or the path goes on from it. -/
theorem exists_links (hpath : f.IsRootPath path) (hx : x ∈ path) :
    x = f.rootIndex ∨ ∃ y ∈ path, y ≠ x ∧ f.nodes.Links x y := by
  obtain ⟨front, back, rfl⟩ := List.append_of_mem hx
  cases back with
  | nil =>
    left
    simpa using hpath.last
  | cons y back =>
    refine .inr ⟨y, by simp, ?_, ?_⟩
    · rintro rfl
      simpa using (List.nodup_append.1 hpath.isPath.nodup).2.1
    · exact (List.isChain_append_cons_cons.1 hpath.isPath.links).2.1

/-- The chain does not leave the path. -/
theorem mem_of_links (hpath : f.IsRootPath path) (hx : x ∈ path) (hxy : f.nodes.Links x y) :
    y ∈ path := by
  rcases hpath.exists_links hx with rfl | ⟨z, hz, -, hxz⟩
  · exact hpath.ends y hxy
  · rwa [hxy.unique hxz]

theorem mem_of_reaches (hpath : f.IsRootPath path)
    (hreach : Relation.ReflTransGen f.nodes.Links f.top y) : y ∈ path := by
  induction hreach with
  | refl => exact List.mem_of_head? hpath.isPath.head
  | tail _ hyz ih => exact hpath.mem_of_links ih hyz

end IsRootPath

/-- The chain leads to the root. -/
theorem reaches_rootIndex (f : Failure) : Relation.ReflTransGen f.nodes.Links f.top f.rootIndex := by
  obtain ⟨path, hpath⟩ := f.exists_isRootPath
  obtain ⟨rest, rfl, -⟩ := hpath.follows
  refine List.relationReflTransGen_of_exists_isChain_cons rest hpath.isPath.links ?_
  have hlast := hpath.last
  rw [List.getLast?_eq_some_getLast (List.cons_ne_nil _ _)] at hlast
  exact Option.some.inj hlast

namespace Graph

variable {g : Graph} {i j y : Nat} {rest : List Nat}

/-- Where a chain comes to rest is its root. -/
theorem root_of_restsAt (h : g.RestsAt i j) : g.root i = j := by
  rcases Nat.lt_or_ge i g.length with hi | hi
  · let f : Failure := ⟨g, i, hi⟩
    obtain ⟨path, hpath⟩ := f.exists_isRootPath
    rcases hpath.exists_links (hpath.mem_of_reaches h.1) with hroot | ⟨k, -, hne, hjk⟩
    · exact hroot.symm
    · exact absurd (h.2 k hjk) hne
  · rw [root_of_length_le hi]
    rcases h.1.cases_head with rfl | ⟨k, hik, -⟩
    · rfl
    · exact absurd hik.lt (Nat.not_lt.2 hi)

/-- A failure that is its own root leads nowhere else: the path starts and ends there, and passes it
only once. -/
theorem eq_of_links_of_root_eq (hroot : g.root i = i) (hij : g.Links i j) : j = i := by
  let f : Failure := ⟨g, i, hij.lt⟩
  obtain ⟨path, hpath⟩ := f.exists_isRootPath
  obtain ⟨rest, rfl, -⟩ := hpath.follows
  have hlast : (i :: rest).getLast? = some i := hpath.last.trans (congrArg some hroot)
  cases rest with
  | nil => exact List.mem_singleton.1 (hpath.mem_of_links List.mem_cons_self hij)
  | cons k rest =>
    rw [List.getLast?_cons_cons] at hlast
    exact absurd (List.mem_of_getLast? hlast) (List.nodup_cons.1 hpath.isPath.nodup).1

/-- The root of a root is that root exactly if the chain comes to rest. -/
theorem root_root_eq_iff : g.root (g.root i) = g.root i ↔ ∃ j, g.RestsAt i j := by
  constructor
  · intro hroot
    rcases Nat.lt_or_ge i g.length with hi | hi
    · exact ⟨g.root i, reaches_rootIndex ⟨g, i, hi⟩, fun _ => eq_of_links_of_root_eq hroot⟩
    · exact ⟨i, .refl, fun k hk => absurd hk.lt (Nat.not_lt.2 hi)⟩
  · rintro ⟨j, hrest⟩
    rw [root_of_restsAt hrest]
    exact root_of_restsAt ⟨.refl, hrest.2⟩

/-! ## Cycles -/

/-- From a failure on a cycle the search runs through the cycle once. -/
theorem root_of_isChain (hchain : (y :: (rest ++ [y])).IsChain g.Links) (hnodup : (y :: rest).Nodup) :
    g.root y = (y :: rest).getLast (List.cons_ne_nil _ _) := by
  rw [← List.cons_append] at hchain
  have hback : g.Links ((y :: rest).getLast (List.cons_ne_nil _ _)) y :=
    hchain.rel_getLast_head_of_append (List.cons_ne_nil _ _) (List.cons_ne_nil _ _)
  have hy : y < g.length := hback.1
  let f : Failure := ⟨g, y, hy⟩
  obtain ⟨path, hpath⟩ := f.exists_isRootPath
  obtain ⟨more, rfl⟩ := hpath.longest _ ⟨rfl, hchain.left_of_append, hnodup⟩
  have hmore : more = [] := by
    cases more with
    | nil => rfl
    | cons z more =>
      have hz := hpath.isPath.links.rel_getLast_head_of_append (List.cons_ne_nil _ _)
        (List.cons_ne_nil _ _)
      obtain rfl : y = z := hback.unique hz
      exact absurd hpath.isPath.nodup (by simp)
  have hlast := hpath.last
  rw [hmore, List.append_nil, List.getLast?_eq_some_getLast (List.cons_ne_nil _ _)] at hlast
  exact (Option.some.inj hlast).symm

/-- A cycle can be read from any of its failures on. -/
theorem exists_eq_coe_cons {s : Cycle Nat} (hy : y ∈ s) : ∃ rest : List Nat, s = ↑(y :: rest) := by
  induction s using Quotient.inductionOn' with
  | _ l =>
    obtain ⟨front, back, rfl⟩ := List.append_of_mem (show y ∈ l from hy)
    exact ⟨back ++ front, Cycle.coe_eq_coe.2 List.isRotated_append⟩

/-- On a cycle the root is the failure before. -/
theorem root_cycle {s : Cycle Nat} (hs : s.Nodup) (hlinks : s.Chain g.Links) (hy : y ∈ s) :
    g.root y = s.prev hs y hy := by
  obtain ⟨rest, rfl⟩ := exists_eq_coe_cons hy
  rw [root_of_isChain hlinks hs]
  exact (List.prev_getLast_cons rest y hy).symm

/-- Each root of a root is one place further back. -/
theorem iterate_root_getElem {l : List Nat} (hs : l.Nodup) (hlinks : (l : Cycle Nat).Chain g.Links)
    {n : Nat} (hn : n < l.length) (times : Nat) :
    g.root^[times] l[n] =
      l.get ⟨(n + times * (l.length - 1)) % l.length, Nat.mod_lt _ (Nat.zero_lt_of_lt hn)⟩ := by
  simp only [List.get_eq_getElem]
  induction times with
  | zero => simp [Nat.mod_eq_of_lt hn]
  | succ times ih =>
    have hprev := root_cycle (s := l) hs hlinks
      (List.getElem_mem (Nat.mod_lt (n + times * (l.length - 1)) (Nat.zero_lt_of_lt hn)))
    rw [Function.iterate_succ_apply', ih, hprev]
    refine (List.prev_getElem l hs _ _).trans ?_
    congr 1
    rw [Nat.mod_add_mod, Nat.succ_mul, Nat.add_assoc]

theorem iterate_root_cycle {s : Cycle Nat} (hs : s.Nodup) (hlinks : s.Chain g.Links) (hy : y ∈ s) :
    g.root^[s.length] y = y := by
  obtain ⟨rest, rfl⟩ := exists_eq_coe_cons hy
  have hzero := iterate_root_getElem hs hlinks (n := 0) (Nat.zero_lt_succ rest.length)
    (y :: rest).length
  simpa using hzero

/-- A root is its own root exactly if the chain that led to it ends, or runs into a failure linked to
itself. On a cycle the root is the failure before, so that as many roots of roots as the cycle is long
lead back. -/
theorem root_idempotent_iff (g : Graph) :
    (∀ i, g.root (g.root i) = g.root i ↔ g.Ends i ∨ g.RunsIntoItself i) ∧
    ∀ (s : Cycle Nat) (hs : s.Nodup), s.Chain g.Links → ∀ (y : Nat) (hy : y ∈ s),
      g.root y = s.prev hs y hy ∧ g.root^[s.length] y = y :=
  ⟨fun _ => root_root_eq_iff.trans ends_or_runsIntoItself_iff.symm, fun _ hs hlinks _ hy =>
    ⟨root_cycle hs hlinks hy, iterate_root_cycle hs hlinks hy⟩⟩

/-- Two failures before a cycle of three, and one that is linked to itself. -/
def loops : Graph :=
  [{ kind := .runtime, message := .text "a", cause? := some 1 },
    { kind := .value, message := .text "b", context? := some 2 },
    { kind := .key, message := .text "c", cause? := some 3, context? := some 0 },
    { kind := .os, message := .text "d", context? := some 4 },
    { kind := .type, message := .text "e", cause? := some 2 },
    { kind := .index, message := .text "f", cause? := some 5 }]

theorem root_idempotent_loops :
    loops.root 0 = 4 ∧ loops.root 4 = 3 ∧ ¬ (loops.Ends 0 ∨ loops.RunsIntoItself 0) ∧
    loops.RunsIntoItself 5 ∧ loops.root (loops.root 5) = loops.root 5 ∧
    ∃ (hs : (↑[2, 3, 4] : Cycle Nat).Nodup) (hy : 3 ∈ (↑[2, 3, 4] : Cycle Nat)),
      (↑[2, 3, 4] : Cycle Nat).Chain loops.Links ∧
      loops.root 3 = (↑[2, 3, 4] : Cycle Nat).prev hs 3 hy ∧ loops.root^[3] 3 = 3 := by
  have hlinks : (↑[2, 3, 4] : Cycle Nat).Chain loops.Links := by
    simp only [Cycle.chain_coe_cons, List.cons_append, List.nil_append, List.isChain_cons_cons]
    exact ⟨next?_eq_some.1 rfl, next?_eq_some.1 rfl, next?_eq_some.1 rfl, List.IsChain.singleton _⟩
  have hself : loops.RunsIntoItself 5 := ⟨5, .refl, next?_eq_some.1 rfl⟩
  have hs : (↑[2, 3, 4] : Cycle Nat).Nodup := by decide
  have hy : 3 ∈ (↑[2, 3, 4] : Cycle Nat) := by decide
  obtain ⟨hiff, hcycle⟩ := root_idempotent_iff loops
  refine ⟨rfl, rfl, fun hrests => ?_, hself, (hiff 5).2 (.inr hself), hs, hy, hlinks,
    hcycle _ hs hlinks 3 hy⟩
  exact absurd ((hiff 0).2 hrests) (by decide)

end Graph

end Keyring.Failure
