import Keyring.Proofs.Yaml.PrivateKey.Graph
import Keyring.Yaml.Merge
/-!
# Merging in lockstep

Merges look at tags, entries and places, none of which the private key is part of. So mappings of graphs
that differ in the private key are flattened alike, to such graphs again (`Graph.Twin.flatten`). The private
key stays where it is: no entry is tagged as a merge that the topmost mapping starts with, and nothing
merges the topmost mapping.
-/

namespace Keyring.Yaml

open Outcome

/-- What mapping `i` may hold: entries of later nodes, and if it is the topmost, the type and the private
key. -/
def MayHold (i : Nat) (e : Nat × Nat) : Prop :=
  i = 0 ∧ IsTopEntry e ∨ 5 ≤ e.1 ∧ 5 ≤ e.2

/-- Item `j` of a list that is merged into mapping `i`: its entries are kept beside those taken before. -/
def Graph.flattenItem (fuel i : Nat) (taken : Graph × List (List (Nat × Nat))) (j : Nat) :
    Except Fault (Graph × List (List (Nat × Nat))) :=
  match taken.1[j]? with
  | none => pure taken
  | some m =>
    if isMapping m then do
      let g ← taken.1.flattenWith fuel j []
      pure (g, g.entries j :: taken.2)
    else throw (taken.1.mergeFault i "a mapping" m)

namespace Graph.Twin

variable {key key' : List Char} {g g' : Graph} {i : Nat}

theorem tag_eq (h : Twin key key' g g') (i : Nat) : g'.tag i = g.tag i := by
  rw [Graph.tag, h.map_eq (fun _ _ _ _ => rfl), Graph.tag]

theorem entries_eq (h : Twin key key' g g') (i : Nat) : g'.entries i = g.entries i := by
  rw [Graph.entries, h.map_eq (fun _ _ _ _ => rfl), Graph.entries]

theorem firstMerge?_eq (h : Twin key key' g g') (i : Nat) : g'.firstMerge? i = g.firstMerge? i := by
  simp only [firstMerge?, h.entries_eq, h.tag_eq]

theorem mergeFault_eq (h : Twin key key' g g') (i : Nat) (wanted : String) (n : Node) :
    g'.mergeFault i wanted n = g.mergeFault i wanted n := by
  rw [mergeFault, h.map_eq (fun _ _ _ _ => rfl), mergeFault]

theorem mayHold (h : Twin key key' g g') (hi : IsPlace i) : ∀ e ∈ g.entries i, MayHold i e := by
  intro e he
  rcases hi with rfl | hi
  · obtain ⟨n, es, hn, -, hc, hes⟩ := h.top
    simp only [entries, hn, hc, Option.map_some, Option.getD_some, Content.entries] at he
    exact .inl ⟨rfl, hes e he⟩
  · cases hn : g[i]? with
    | none => simp [entries, hn] at he
    | some n =>
      have hlater := h.later i n hi hn
      simp only [entries, hn, Option.map_some, Option.getD_some] at he
      cases hc : n.content with
      | mapping es =>
        rw [hc] at he hlater
        exact .inr (hlater e he)
      | scalar text => simp [hc, Content.entries] at he
      | sequence items => simp [hc, Content.entries] at he

theorem setEntries (h : Twin key key' g g') (hi : IsPlace i) {es : List (Nat × Nat)}
    (hes : ∀ e ∈ es, MayHold i e) : Twin key key' (g.setEntries i es) (g'.setEntries i es) := by
  rcases hi with rfl | hi
  · refine h.setTop fun e he => ?_
    rcases hes e he with ⟨-, htop⟩ | hlater
    · exact htop
    · exact .inr (.inr hlater)
  · refine h.modify hi fun _ _ e he => ?_
    rcases hes e he with ⟨rfl, -⟩ | hlater
    · omega
    · exact hlater

/-- The keys that the topmost mapping starts with are plain texts. -/
theorem isLater_of_tag (h : Twin key key' g g') {e : Nat × Nat} (he : MayHold i e)
    (htag : g.tag e.1 ≠ strTag) : 5 ≤ e.1 ∧ 5 ≤ e.2 := by
  have htext {j : Nat} {w : List Char} (ht : IsText g j w) : g.tag j = strTag := by
    obtain ⟨n, hn, htag, -⟩ := ht
    rw [Graph.tag, hn]
    exact htag
  rcases he with ⟨-, rfl | rfl | hlater⟩ | hlater
  · exact absurd (htext h.typeKey) htag
  · exact absurd (htext h.keyKey) htag
  · exact hlater
  · exact hlater

theorem firstMerge?_isLater (h : Twin key key' g g') (hi : IsPlace i) {e : Nat × Nat}
    {rest : List (Nat × Nat)} (hfirst : g.firstMerge? i = some (e, rest)) :
    (5 ≤ e.1 ∧ 5 ≤ e.2) ∧ ∀ d ∈ rest, MayHold i d := by
  obtain ⟨k, hk, hfirst⟩ := Option.bind_eq_some_iff.1 hfirst
  obtain ⟨d, hd, hrest⟩ := Option.map_eq_some_iff.1 hfirst
  obtain ⟨rfl, rfl⟩ := Prod.mk.inj hrest
  have hmay := h.mayHold hi
  refine ⟨h.isLater_of_tag (hmay d (List.mem_of_getElem? hd)) ?_,
    fun c hc => hmay c (List.mem_of_mem_eraseIdx hc)⟩
  obtain ⟨hlt, hmerge, -⟩ := List.findIdx?_eq_some_iff_getElem.1 hk
  obtain ⟨_, rfl⟩ := List.getElem?_eq_some_iff.1 hd
  rw [eq_of_beq hmerge]
  decide

theorem plainKeys (h : Twin key key' g g') (hi : IsPlace i) :
    Twin key key' (g.plainKeys i) (g'.plainKeys i) := by
  have hes := h.mayHold hi
  rw [Graph.plainKeys, Graph.plainKeys, h.entries_eq]
  generalize g.entries i = es at hes
  induction es generalizing g g' with
  | nil => exact h
  | cons e es ih =>
    obtain ⟨he, hes⟩ := List.forall_mem_cons.1 hes
    rw [List.foldl_cons, List.foldl_cons, h.tag_eq]
    refine ih ?_ hes
    split
    · next htag =>
      have hlater := h.isLater_of_tag he (by rw [eq_of_beq htag]; decide)
      exact h.modify hlater.1 fun _ hc => hc
    · exact h

theorem entries_isLater (h : Twin key key' g g') (hi : 5 ≤ i) :
    ∀ e ∈ g.entries i, 5 ≤ e.1 ∧ 5 ≤ e.2 := by
  intro e he
  rcases h.mayHold (.inr hi) e he with ⟨rfl, -⟩ | hlater
  · omega
  · exact hlater

/-- Entries that were taken from others come before those of the mapping itself. -/
theorem finish (h : Twin key key' g g') (hi : IsPlace i) {merged : List (Nat × Nat)}
    (hmerged : ∀ e ∈ merged, 5 ≤ e.1 ∧ 5 ≤ e.2) :
    Twin key key' (g.setEntries i (merged ++ g.entries i)) (g'.setEntries i (merged ++ g'.entries i)) := by
  rw [h.entries_eq]
  refine h.setEntries hi fun e he => ?_
  rcases List.mem_append.1 he with he | he
  · exact .inr (hmerged e he)
  · exact h.mayHold hi e he

/-- The mappings merged by a list are flattened alike. -/
theorem flattenItems {fuel : Nat} (hflatten : ∀ {g g' : Graph} {j : Nat}, Twin key key' g g' → 5 ≤ j →
      Alike (Twin key key') (g.flattenWith fuel j []) (g'.flattenWith fuel j []))
    (h : Twin key key' g g') (i : Nat) {items : List Nat} (hitems : ∀ j ∈ items, 5 ≤ j) :
    Alike (fun r r' => Twin key key' r.1 r'.1 ∧ r'.2 = r.2 ∧ ∀ es ∈ r.2, ∀ e ∈ es, 5 ≤ e.1 ∧ 5 ≤ e.2)
      (items.foldlM (flattenItem fuel i) (g, [])) (items.foldlM (flattenItem fuel i) (g', [])) := by
  refine Alike.foldlM ?_ ⟨h, rfl, by simp⟩
  rintro j hj ⟨g, taken⟩ ⟨g', _⟩ ⟨h, rfl, htaken⟩
  have hlater := hitems j hj
  dsimp only [flattenItem] at h htaken ⊢
  rw [h.same j (by omega)]
  cases g[j]? with
  | none => exact .ok ⟨h, rfl, htaken⟩
  | some m =>
    dsimp only
    split
    · refine (hflatten h hlater).bind fun g g' h => ?_
      rw [h.entries_eq]
      exact .ok ⟨h, rfl, List.forall_mem_cons.2 ⟨h.entries_isLater hlater, htaken⟩⟩
    · rw [h.mergeFault_eq]
      exact .error _

/-- A mapping is flattened alike. -/
theorem flattenWith (fuel : Nat) (h : Twin key key' g g') (hi : IsPlace i) {merged : List (Nat × Nat)}
    (hmerged : ∀ e ∈ merged, 5 ≤ e.1 ∧ 5 ≤ e.2) :
    Alike (Twin key key') (g.flattenWith fuel i merged) (g'.flattenWith fuel i merged) := by
  induction fuel generalizing g g' i merged with
  | zero => exact .ok h
  | succ fuel ih =>
    have hmany {merged es : List (Nat × Nat)} (hmerged : ∀ e ∈ merged, 5 ≤ e.1 ∧ 5 ≤ e.2)
        (hes : ∀ e ∈ es, 5 ≤ e.1 ∧ 5 ≤ e.2) : ∀ e ∈ merged ++ es, 5 ≤ e.1 ∧ 5 ≤ e.2 :=
      fun e he => (List.mem_append.1 he).elim (hmerged e) (hes e)
    unfold Graph.flattenWith
    rw [h.firstMerge?_eq]
    cases hfirst : g.firstMerge? i with
    | none => exact .ok ((h.plainKeys hi).finish hi hmerged)
    | some first =>
      obtain ⟨⟨k, v⟩, rest⟩ := first
      -- What is merged is a later node or a list of such, never the topmost mapping.
      obtain ⟨⟨-, hv⟩, hrest⟩ := h.firstMerge?_isLater hi hfirst
      have h := h.setEntries hi hrest
      dsimp only at hv ⊢
      rw [h.same v (by omega)]
      cases hn : (g.setEntries i rest)[v]? with
      | none => exact .ok h
      | some n =>
        have hlater := h.later v n hv hn
        dsimp only
        cases hc : n.content with
        | mapping es =>
          refine (ih h (.inr hv) (by simp)).bind fun g g' h => ?_
          rw [h.entries_eq]
          exact ih h hi (hmany hmerged (h.entries_isLater hv))
        | sequence items =>
          rw [hc] at hlater
          refine (flattenItems (fun h hj => ih h (.inr hj) (by simp)) h i hlater).bind ?_
          rintro ⟨g, taken⟩ ⟨g', _⟩ ⟨h, rfl, htaken⟩
          refine ih h hi (hmany hmerged fun e he => ?_)
          obtain ⟨es, hes, he⟩ := List.mem_flatten.1 he
          exact htaken es hes e he
        | scalar text =>
          dsimp only
          rw [h.mergeFault_eq]
          exact .error _

theorem mergeCount_eq (h : Twin key key' g g') : g'.mergeCount = g.mergeCount := by
  have hentries : g'.toList.map (·.content.entries) = g.toList.map (·.content.entries) := by
    refine List.ext_getElem? fun i => ?_
    rw [List.getElem?_map, List.getElem?_map, Array.getElem?_toList, Array.getElem?_toList]
    exact h.map_eq (fun _ _ _ _ => rfl) i
  simp only [mergeCount, List.flatMap_def, hentries, h.tag_eq]

theorem flatten (h : Twin key key' g g') (hi : IsPlace i) :
    Alike (Twin key key') (g.flatten i) (g'.flatten i) := by
  rw [Graph.flatten, Graph.flatten, h.mergeCount_eq]
  exact h.flattenWith _ hi (by simp)

end Graph.Twin

end Keyring.Yaml
