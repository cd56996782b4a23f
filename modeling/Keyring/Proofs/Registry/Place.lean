import Keyring.Registry
import Keyring.Proofs.Outcome
import Mathlib.Data.Prod.Lex
import Mathlib.Data.String.Basic
/-!
# The place of a handler

Handlers are ordered by priority and then by name (`Handler.rank`). In a list in this order, where
handlers of one rank are one handler, the search by halving finds the place behind all handlers that a
new one does not come before, and it meets every handler that cannot be compared with the new one
(`place_eq`). What it puts together is in order again (`Ranked.putIn`).
-/

namespace Keyring

namespace Handler

/-- What handlers are ordered by: the priority, then the name. -/
def rank (h : Handler) : Int ×ₗ String :=
  toLex (h.priority, h.name)

/-- The handlers cannot be told apart by their ranks, and are two. -/
def Clashes (g h : Handler) : Prop :=
  g.rank = h.rank ∧ g.number ≠ h.number

instance (g h : Handler) : Decidable (g.Clashes h) :=
  inferInstanceAs (Decidable (_ ∧ _))

variable {g h : Handler}

theorem rank_eq_iff : g.rank = h.rank ↔ g.priority = h.priority ∧ g.name = h.name := by
  rw [rank, rank, toLex_inj, Prod.mk.injEq]

theorem rank_lt_iff :
    g.rank < h.rank ↔ g.priority < h.priority ∨ g.priority = h.priority ∧ g.name < h.name :=
  Prod.Lex.toLex_lt_toLex

theorem Clashes.symm (hc : g.Clashes h) : h.Clashes g :=
  ⟨hc.1.symm, hc.2.symm⟩

theorem precedes_of_clashes (hc : g.Clashes h) : g.precedes h = .error clash := by
  obtain ⟨hrank, hnumber⟩ := hc
  obtain ⟨hpriority, hname⟩ := rank_eq_iff.1 hrank
  rw [precedes, if_neg (not_not.2 hpriority), if_neg (not_not.2 hname), if_neg hnumber]

theorem precedes_of_not_clashes (hc : ¬ g.Clashes h) :
    g.precedes h = .ok (decide (g.rank < h.rank)) := by
  rw [precedes]
  split
  · next hpriority =>
    have hlt : g.rank < h.rank ↔ g.priority < h.priority := by
      rw [rank_lt_iff, or_iff_left fun h => hpriority h.1]
    simp only [hlt]
  · next hpriority =>
    rw [not_not] at hpriority
    split
    · next hname =>
      have hlt : g.rank < h.rank ↔ g.name < h.name := by
        rw [rank_lt_iff, or_iff_right (by omega), and_iff_right hpriority]
      simp only [hlt]
    · next hname =>
      rw [not_not] at hname
      have hrank : g.rank = h.rank := rank_eq_iff.2 ⟨hpriority, hname⟩
      rw [if_pos (by_contra fun hnumber => hc ⟨hrank, hnumber⟩), hrank, decide_eq_false (lt_irrefl _)]

end Handler

namespace Registry

open Handler

variable {hs : List Handler} {g h : Handler}

/-- The handlers are in the order of their ranks, and those of one rank are one. -/
def Ranked (hs : List Handler) : Prop :=
  hs.Pairwise fun g h => g.rank < h.rank ∨ g.rank = h.rank ∧ g.number = h.number

theorem Ranked.le (hr : Ranked hs) : hs.Pairwise fun g h => g.rank ≤ h.rank :=
  hr.imp fun hgh => hgh.elim le_of_lt fun h => h.1.le

/-! ## The search -/

theorem rank_le_of_le (hr : hs.Pairwise fun g h => g.rank ≤ h.rank) {i j : Nat}
    (hg : hs[i]? = some g) (hh : hs[j]? = some h) (hij : i ≤ j) : g.rank ≤ h.rank := by
  rcases Nat.eq_or_lt_of_le hij with rfl | hij
  · rw [Option.some.inj (hg.symm.trans hh)]
  · obtain ⟨hi, rfl⟩ := List.getElem?_eq_some_iff.1 hg
    obtain ⟨hj, rfl⟩ := List.getElem?_eq_some_iff.1 hh
    exact List.pairwise_iff_getElem.1 hr i j hi hj hij

/-- What the search for the place of `h` may come to when it starts at `low`. -/
inductive Search (hs : List Handler) (h : Handler) (low : Nat) : Except Failure Nat → Prop
  /-- It meets a handler that clashes. -/
  | clash {i : Nat} {g : Handler} : hs[i]? = some g → h.Clashes g → Search hs h low (.error clash)
  /-- It ends behind all handlers that `h` does not come before. Unless it has not moved, it has
  compared `h` with the last of them. -/
  | place {k : Nat} : (∀ i g, hs[i]? = some g → (g.rank ≤ h.rank ↔ i < k)) →
      (k = low ∨ ∃ j g, k = j + 1 ∧ hs[j]? = some g ∧ ¬ h.Clashes g) → Search hs h low (.ok k)

/-- Where the search ends: up to `low` no handler comes behind `h`, and from `low` on all do. -/
theorem search_end {low : Nat} (hlow : ∀ i g, hs[i]? = some g → i < low → g.rank ≤ h.rank)
    (hhigh : ∀ i g, hs[i]? = some g → low ≤ i → h.rank < g.rank) : Search hs h low (.ok low) := by
  refine .place (fun i g hg => ⟨fun hle => ?_, hlow i g hg⟩) (.inl rfl)
  exact not_le.1 fun hi => absurd hle (not_le.2 (hhigh i g hg hi))

/-- A search that starts further on has compared `h` with the handler before its start. -/
theorem Search.of_succ {o : Except Failure Nat} {low j : Nat} (hs' : Search hs h (j + 1) o)
    (hg : hs[j]? = some g) (hc : ¬ h.Clashes g) : Search hs h low o := by
  cases hs' with
  | clash hg hc => exact .clash hg hc
  | place hk hlast => exact .place hk (.inr (hlast.elim (fun hk => ⟨j, g, hk, hg, hc⟩) id))

theorem search_placeBetween (hr : hs.Pairwise fun g h => g.rank ≤ h.rank) (fuel : Nat) :
    ∀ low high, high ≤ hs.length → high < fuel + low →
      (∀ i g, hs[i]? = some g → i < low → g.rank ≤ h.rank) →
      (∀ i g, hs[i]? = some g → high ≤ i → h.rank < g.rank) →
      Search hs h low (placeBetween hs h fuel low high) := by
  -- The part between `low` and `high` gets shorter with each comparison, so the fuel suffices.
  induction fuel with
  | zero =>
    intro low high _ hfuel hlow hhigh
    exact search_end hlow fun i g hg hi => hhigh i g hg (by omega)
  | succ fuel ih =>
    intro low high hlength hfuel hlow hhigh
    rw [placeBetween]
    split
    · next hlt =>
      obtain ⟨other, hget⟩ : ∃ other, hs[(low + high) / 2]? = some other :=
        ⟨_, List.getElem?_eq_getElem (by omega)⟩
      simp only [hget]
      by_cases hc : h.Clashes other
      · rw [precedes_of_clashes hc]
        exact .clash hget hc
      · rw [precedes_of_not_clashes hc]
        change Search hs h low (if decide (h.rank < other.rank) = true then _ else _)
        split
        · next hbefore =>
          refine ih low _ (by omega) (by omega) hlow fun i g hg hi => ?_
          exact lt_of_lt_of_le (of_decide_eq_true hbefore) (rank_le_of_le hr hget hg hi)
        · next hbehind =>
          have hle : other.rank ≤ h.rank := not_lt.1 fun hlt => hbehind (decide_eq_true hlt)
          refine Search.of_succ (ih _ high hlength (by omega) (fun i g hg hi => ?_) hhigh) hget hc
          exact (rank_le_of_le hr hg hget (by omega)).trans hle
    · exact search_end hlow fun i g hg hi => hhigh i g hg (by omega)

/-! ## Putting a handler in its place -/

/-- The handlers with `h` behind those that it does not come before. -/
def putIn (h : Handler) (hs : List Handler) : List Handler :=
  hs.filter (·.rank ≤ h.rank) ++ h :: hs.filter (h.rank < ·.rank)

/-- The handlers up to the place of `h`, and those behind it. -/
theorem take_drop_eq {k : Nat} (hk : ∀ i g, hs[i]? = some g → (g.rank ≤ h.rank ↔ i < k)) :
    hs.take k = hs.filter (·.rank ≤ h.rank) ∧ hs.drop k = hs.filter (h.rank < ·.rank) := by
  have htake : ∀ g ∈ hs.take k, g.rank ≤ h.rank := by
    intro g hg
    obtain ⟨i, hi⟩ := List.mem_iff_getElem?.1 hg
    rw [List.getElem?_take] at hi
    split at hi
    · next hik => exact (hk i g hi).2 hik
    · cases hi
  have hdrop : ∀ g ∈ hs.drop k, h.rank < g.rank := by
    intro g hg
    obtain ⟨i, hi⟩ := List.mem_iff_getElem?.1 hg
    rw [List.getElem?_drop] at hi
    exact not_le.1 fun hle => absurd ((hk (k + i) g hi).1 hle) (by omega)
  have hle : (hs.take k).filter (h.rank < ·.rank) = [] :=
    List.filter_eq_nil_iff.2 fun g hg => by simpa using htake g hg
  have hlt : (hs.drop k).filter (·.rank ≤ h.rank) = [] :=
    List.filter_eq_nil_iff.2 fun g hg => by simpa using hdrop g hg
  have hle' : (hs.take k).filter (·.rank ≤ h.rank) = hs.take k :=
    List.filter_eq_self.2 fun g hg => by simpa using htake g hg
  have hlt' : (hs.drop k).filter (h.rank < ·.rank) = hs.drop k :=
    List.filter_eq_self.2 fun g hg => by simpa using hdrop g hg
  constructor
  · conv_rhs => rw [← List.take_append_drop k hs, List.filter_append, hle', hlt, List.append_nil]
  · conv_rhs => rw [← List.take_append_drop k hs, List.filter_append, hle, hlt', List.nil_append]

theorem search_place (hr : Ranked hs) : Search hs h 0 (placeBetween hs h (hs.length + 1) 0 hs.length) := by
  refine search_placeBetween hr.le _ 0 hs.length le_rfl (by omega) (by omega) fun i g hg hi => ?_
  rw [List.getElem?_eq_none hi] at hg
  cases hg

/-- Handlers of one rank are one in a ranked list. -/
theorem Ranked.number_eq (hr : Ranked hs) {i j : Nat} {a b : Handler} (ha : hs[i]? = some a)
    (hb : hs[j]? = some b) (hij : i ≤ j) (hrank : a.rank = b.rank) : a.number = b.number := by
  rcases Nat.eq_or_lt_of_le hij with rfl | hij
  · rw [Option.some.inj (ha.symm.trans hb)]
  · obtain ⟨hi, rfl⟩ := List.getElem?_eq_some_iff.1 ha
    obtain ⟨hj, rfl⟩ := List.getElem?_eq_some_iff.1 hb
    rcases List.pairwise_iff_getElem.1 hr i j hi hj hij with hlt | heq
    · exact absurd hrank hlt.ne
    · exact heq.2

/-- A handler is put in its place unless another one clashes with it. -/
theorem place_eq (hr : Ranked hs) : place hs h =
    if ∃ g ∈ hs, h.Clashes g then .error clash else .ok (putIn h hs) := by
  rw [place]
  have hsearch := search_place (h := h) hr
  generalize placeBetween hs h (hs.length + 1) 0 hs.length = o at hsearch
  cases hsearch with
  | clash hg hc =>
    rw [if_pos ⟨_, List.mem_of_getElem? hg, hc⟩]
    rfl
  | @place k hk hlast =>
    obtain ⟨htake, hdrop⟩ := take_drop_eq hk
    rw [if_neg, putIn, ← htake, ← hdrop]
    · rfl
    · -- The last handler of the rank of `h` has been compared with it, and the others are that one.
      rintro ⟨g, hg, hrank, hnumber⟩
      obtain ⟨i, hi⟩ := List.mem_iff_getElem?.1 hg
      have hik : i < k := (hk i g hi).1 hrank.symm.le
      obtain hzero | ⟨j, last, rfl, hj, hc⟩ := hlast
      · omega
      · have hle : last.rank ≤ h.rank := (hk j last hj).2 (Nat.lt_succ_self j)
        have hge : g.rank ≤ last.rank := rank_le_of_le hr.le hi hj (by omega)
        have hlast : h.rank = last.rank := le_antisymm (hrank.le.trans hge) hle
        have hsame := hr.number_eq hi hj (by omega) (hrank.symm.trans hlast)
        exact hc ⟨hlast, fun h => hnumber (h.trans hsame.symm)⟩

theorem perm_putIn (h : Handler) (hs : List Handler) : (putIn h hs).Perm (h :: hs) := by
  refine List.perm_middle.trans (.cons h ?_)
  have hnot : hs.filter (h.rank < ·.rank) = hs.filter fun g => !decide (g.rank ≤ h.rank) :=
    List.filter_congr fun g _ => by rw [← decide_not, decide_eq_decide, not_le]
  rw [hnot]
  exact List.filter_append_perm _ hs

theorem Ranked.putIn (hr : Ranked hs) (hc : ¬ ∃ g ∈ hs, h.Clashes g) : Ranked (putIn h hs) := by
  refine List.pairwise_append.2 ⟨hr.filter _, List.pairwise_cons.2 ⟨?_, hr.filter _⟩, ?_⟩
  · intro g hg
    exact .inl (by simpa using (List.mem_filter.1 hg).2)
  · intro a ha b hb
    obtain ⟨hmem, hle⟩ := List.mem_filter.1 ha
    have hle : a.rank ≤ h.rank := by simpa using hle
    rcases List.mem_cons.1 hb with rfl | hb
    · rcases hle.lt_or_eq with hlt | heq
      · exact .inl hlt
      · exact .inr ⟨heq, by_contra fun hn => hc ⟨a, hmem, heq.symm, fun h => hn h.symm⟩⟩
    · exact .inl (lt_of_le_of_lt hle (by simpa using (List.mem_filter.1 hb).2))

theorem mem_putIn : g ∈ putIn h hs ↔ g = h ∨ g ∈ hs := by
  rw [(perm_putIn h hs).mem_iff, List.mem_cons]

/-- A handler comes first if it comes before all others. -/
theorem head?_putIn (hr : Ranked hs) : (putIn h hs).head? =
    if ∀ g ∈ hs, h.rank < g.rank then some h else hs.head? := by
  split
  · next hall =>
    have hnone : hs.filter (·.rank ≤ h.rank) = [] :=
      List.filter_eq_nil_iff.2 fun g hg => by simpa using hall g hg
    rw [putIn, hnone, List.nil_append, List.head?_cons]
  · next hsome =>
    cases hs with
    | nil => exact absurd (by simp) hsome
    | cons first rest =>
      have hfirst : first.rank ≤ h.rank := by
        refine not_lt.1 fun hlt => hsome (List.forall_mem_cons.2 ⟨hlt, fun g hg => ?_⟩)
        exact hlt.trans_le ((List.pairwise_cons.1 hr.le).1 g hg)
      rw [putIn, List.filter_cons_of_pos (by simpa using hfirst)]
      rfl

end Registry

end Keyring
