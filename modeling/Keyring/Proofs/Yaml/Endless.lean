import Keyring.Proofs.Outcome
import Keyring.Yaml.Document
import Mathlib.Data.List.Duplicate
import Mathlib.Data.List.Perm.Subperm
import Mathlib.Logic.Relation
/-!
# Texts without end

A mapping that stands for a scalar has the text of one of its entries, which may be such a mapping
again. The search for the text goes on without end exactly if it comes to a node that has its text
from itself (`scalarText_eq_endless_iff`). The fuel of the search stands for no limit: with more fuel
than there are nodes, every search that ends does so before the fuel runs out.
-/

namespace Keyring.Yaml

variable {g : Graph} {n : Node} {i j k fuel : Nat}

namespace Graph

/-- The node that a mapping has its text from: the value of the first entry that is tagged as one. -/
def textAt? (g : Graph) (n : Node) : Option Nat :=
  (n.content.entries.find? fun e => g.tag e.1 == valueTag).map (·.2)

/-- The node `i` has its text from the node `j`. -/
def TextFrom (g : Graph) (i j : Nat) : Prop :=
  ∃ n m, g[i]? = some n ∧ g.textAt? n = some j ∧ g[j]? = some m

/-- The search for the text of a node comes to one that has its text from itself. -/
def IsEndless (g : Graph) (k : Nat) : Prop :=
  ∃ i, Relation.ReflTransGen g.TextFrom k i ∧ Relation.TransGen g.TextFrom i i

theorem TextFrom.lt (h : g.TextFrom i j) : j < g.size := by
  obtain ⟨-, m, -, -, hm⟩ := h
  exact (Array.getElem?_eq_some_iff.1 hm).1

/-- A search without end goes on at some node, and from there without end. -/
theorem IsEndless.next (h : g.IsEndless k) : ∃ j, g.TextFrom k j ∧ g.IsEndless j := by
  obtain ⟨i, hki, hii⟩ := h
  rcases hki.cases_head with rfl | ⟨j, hkj, hji⟩
  · obtain ⟨j, hkj, hjk⟩ := Relation.TransGen.head'_iff.1 hii
    exact ⟨j, hkj, k, hjk, hii⟩
  · exact ⟨j, hkj, i, hji, hii⟩

/-- A search that takes more steps than there are nodes is at some node twice. -/
theorem isEndless_of_chain {l : List Nat} (hl : (k :: l).IsChain g.TextFrom)
    (hlength : g.size < l.length) : g.IsEndless k := by
  -- Each node of the search leads to all that come after it.
  have hpair : (k :: l).Pairwise (Relation.TransGen g.TextFrom) :=
    List.isChain_iff_pairwise.1 (hl.imp fun _ _ => .single)
  obtain ⟨hk, hl⟩ := List.pairwise_cons.1 hpair
  have hrange : l ⊆ List.range g.size := by
    intro x hx
    obtain ⟨y, -, hyx⟩ := Relation.TransGen.tail'_iff.1 (hk x hx)
    exact List.mem_range.2 hyx.lt
  have hnodup : ¬ l.Nodup := by
    intro hnodup
    have hle := (hnodup.subperm hrange).length_le
    rw [List.length_range] at hle
    omega
  obtain ⟨x, hx⟩ := List.exists_duplicate_iff_not_nodup.2 hnodup
  have hxx := hl.sublist (List.duplicate_iff_sublist.1 hx)
  exact ⟨x, (hk x hx.mem).to_reflTransGen, by simpa using hxx⟩

end Graph

namespace Make

/-- With one step more, the search runs out of fuel exactly if it goes on at a node from which it
does. -/
theorem scalarText_succ_eq_endless_iff : scalarText g (fuel + 1) n = .error .endless ↔
    ∃ j m, g.textAt? n = some j ∧ g[j]? = some m ∧ scalarText g fuel m = .error .endless := by
  have hwrong : (.error (wrongKind "scalar" n) : Except Fault (List Char)) ≠ .error .endless := by
    simp [wrongKind, Fault.at]
  rw [scalarText, Graph.textAt?]
  cases n.content with
  | scalar text => simp [Content.entries]
  | sequence items => simpa [Content.entries] using hwrong
  | mapping entries =>
    simp only [Content.entries]
    cases entries.find? fun e => g.tag e.1 == valueTag with
    | none => simpa using hwrong
    | some e =>
      simp only [Option.bind_some, Option.map_some]
      cases hm : g[e.2]? with
      | none => simpa [hm] using hwrong
      | some m => simp [hm]

/-- A search that runs out of fuel was at as many nodes as it had fuel. -/
theorem exists_chain_of_endless (hn : g[k]? = some n) (h : scalarText g fuel n = .error .endless) :
    ∃ l, l.length = fuel ∧ (k :: l).IsChain g.TextFrom := by
  induction fuel generalizing k n with
  | zero => exact ⟨[], rfl, .singleton k⟩
  | succ fuel ih =>
    obtain ⟨j, m, hj, hm, h⟩ := scalarText_succ_eq_endless_iff.1 h
    obtain ⟨l, hlength, hl⟩ := ih hm h
    exact ⟨j :: l, by rw [List.length_cons, hlength], .cons_cons ⟨n, m, hn, hj, hm⟩ hl⟩

/-- A search without end uses any fuel up. -/
theorem scalarText_of_isEndless (hn : g[k]? = some n) (h : g.IsEndless k) (fuel : Nat) :
    scalarText g fuel n = .error .endless := by
  induction fuel generalizing k n with
  | zero => rfl
  | succ fuel ih =>
    obtain ⟨j, ⟨n', m, hn', hj, hm⟩, h⟩ := h.next
    obtain rfl := Option.some.inj (hn.symm.trans hn')
    exact scalarText_succ_eq_endless_iff.2 ⟨j, m, hj, hm, ih hm h⟩

/-- With more fuel than there are nodes, the fuel runs out exactly if the search has no end. -/
theorem scalarText_eq_endless_iff (hn : g[k]? = some n) (hfuel : g.size < fuel) :
    scalarText g fuel n = .error .endless ↔ g.IsEndless k := by
  constructor
  · intro h
    obtain ⟨l, hlength, hl⟩ := exists_chain_of_endless hn h
    exact g.isEndless_of_chain hl (by omega)
  · exact fun h => scalarText_of_isEndless hn h fuel

/-- The text of the type is the value of its only entry, which is the type again. -/
example : Outcome.failure? (Document.read "type: &a !!str \x7b=: *a\x7d".toList) = some .endless := by
  decide +kernel

end Make

end Keyring.Yaml
