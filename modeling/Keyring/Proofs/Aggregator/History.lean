import Keyring.Aggregator.Shared
/-!
# Histories of a shared aggregator

A history says which thread had the lock when, what it did, and what it was told. It is a merge of what
each of its threads has done (`isMerge_numbered`), and its additions are a merge of what each has added
(`IsMerge.filterMap`). It is serial if every access found what the accesses before it had left
(`Serial`). Then the aggregator holds the credentials that were added, in their order
(`Serial.results_eq`), and every copy is a prefix of the copies taken later (`Serial.copies_pairwise`).

A call that no other thread interrupts does what the aggregator's own operation does
(`foldl_accesses`), although it is made of several accesses.
-/

namespace Keyring.Aggregator

/-! ## Merges -/

section Merges
variable {α β : Type}

/-- A merge of lists takes their elements one by one, each time the first that is left of one of the
lists, until none is left of any. -/
inductive IsMerge : List (List α) → List α → Prop
  | nil {lists} : (∀ l ∈ lists, l = []) → IsMerge lists []
  | take {lists i x rest merged} : lists[i]? = some (x :: rest) →
      IsMerge (lists.set i rest) merged → IsMerge lists (x :: merged)

theorem IsMerge.filterMap {lists : List (List α)} {merged : List α} (h : IsMerge lists merged)
    (f : α → Option β) : IsMerge (lists.map (·.filterMap f)) (merged.filterMap f) := by
  induction h with
  | nil hnil =>
    apply IsMerge.nil
    intro l hl
    obtain ⟨l', hl', rfl⟩ := List.mem_map.1 hl
    rw [hnil l' hl', List.filterMap_nil]
  | @take lists i x rest merged hi _ ih =>
    rw [List.map_set] at ih
    have hi' : (lists.map (·.filterMap f))[i]? = some ((x :: rest).filterMap f) := by
      rw [List.getElem?_map, hi]
      rfl
    cases hx : f x with
    | some y =>
      rw [List.filterMap_cons_some hx] at hi' ⊢
      exact .take hi' ih
    | none =>
      -- Nothing is left of `x`, so the list is the same without it.
      rw [List.filterMap_cons_none hx] at hi' ⊢
      obtain ⟨hlt, heq⟩ := List.getElem?_eq_some_iff.1 hi'
      rwa [← heq, List.set_getElem_self] at ih

/-- Elements with a number each are a merge of those with number 0, those with number 1, and so on. -/
theorem isMerge_numbered {n : Nat} {l : List (Nat × α)} (h : ∀ e ∈ l, e.1 < n) :
    IsMerge ((List.range n).map fun i => (l.filter (·.1 == i)).map Prod.snd) (l.map Prod.snd) := by
  induction l with
  | nil => exact .nil (by simp)
  | cons e l ih =>
    have hi : e.1 < n := h e List.mem_cons_self
    have hfirst : ((List.range n).map fun i => ((e :: l).filter (·.1 == i)).map Prod.snd)[e.1]? =
        some (e.2 :: (l.filter (·.1 == e.1)).map Prod.snd) := by
      simp [hi]
    -- Taking `e` changes only the list of its number.
    have hrest : ((List.range n).map fun i => ((e :: l).filter (·.1 == i)).map Prod.snd).set e.1
          ((l.filter (·.1 == e.1)).map Prod.snd) =
        (List.range n).map fun i => (l.filter (·.1 == i)).map Prod.snd := by
      apply List.ext_getElem?
      intro i
      by_cases hie : e.1 = i
      · subst hie
        simp [hi]
      · rw [List.getElem?_set_ne hie]
        by_cases hin : i < n <;> simp [hin, hie]
    apply IsMerge.take hfirst
    rw [hrest]
    exact ih fun e' he' => h e' (List.mem_cons_of_mem _ he')

end Merges

/-! ## Accesses -/

/-- What an access makes of an aggregator that no other thread changes meanwhile. -/
def Access.apply (access : Access) (a : Aggregator) : Aggregator :=
  (access.stored? a).getD a

/-- What was done. -/
def Event.access : Event → Access
  | .added c => .add c
  | .listed _ => .results
  | .counted _ => .size

/-- The credential that an access adds. -/
def Access.credential? : Access → Option Credential
  | .add c => some c
  | .results | .size => none

def Event.copy? : Event → Option (List Credential)
  | .listed l => some l
  | _ => none

/-- What a thread was told is so of an aggregator. -/
def Event.IsTrueOf (a : Aggregator) : Event → Prop
  | .added _ => True
  | .listed l => l = a.results
  | .counted n => n = a.results.length

theorem isTrueOf_event (access : Access) (a : Aggregator) : (access.event a).IsTrueOf a := by
  cases access with
  | add c => trivial
  | results => rfl
  | size => exact a.size_eq_length_results

@[simp] theorem access_event (access : Access) (a : Aggregator) :
    (access.event a).access = access := by
  cases access <;> rfl

theorem results_apply (access : Access) (a : Aggregator) :
    (access.apply a).results = a.results ++ access.credential?.toList := by
  cases access <;> simp [Access.apply, Access.stored?, Access.credential?]

/-! ## Calls -/

/-- The credentials that a call adds. -/
def Call.credentials : Call → List Credential
  | .add c => [c]
  | .collect outcomes => outcomes.filterMap id
  | .results | .size => []

theorem filterMap_accesses (call : Call) :
    call.accesses.filterMap Access.credential? = call.credentials := by
  cases call with
  | collect outcomes =>
    have hadd : ∀ o : Option Credential, (o.map Access.add).bind Access.credential? = o := by
      intro o
      cases o <;> rfl
    have hresults : [Access.results].filterMap Access.credential? = [] := rfl
    simp only [Call.accesses, Call.credentials, List.filterMap_append, List.filterMap_filterMap, hadd,
      hresults, List.append_nil]
    rfl
  | _ => rfl

/-- What a call makes of an aggregator that no other thread changes meanwhile. -/
def Call.apply : Call → Aggregator → Aggregator
  | .add c, a => a.add c
  | .collect outcomes, a => a.collect outcomes
  | .results, a | .size, a => a

theorem foldl_accesses (call : Call) (a : Aggregator) :
    call.accesses.foldl (fun a access => access.apply a) a = call.apply a := by
  cases call with
  | collect outcomes =>
    induction outcomes generalizing a with
    | nil => rfl
    | cons o outcomes ih =>
      cases o with
      | none => exact ih a
      | some c => exact ih (a.add c)
  | _ => rfl

/-! ## Serial histories -/

/-- What accesses do to an empty aggregator, one after the other, and what they are told. -/
inductive Serial : List (Nat × Event) → Aggregator → Prop
  | nil : Serial [] .empty
  | next {history a} : Serial history a → ∀ (i : Nat) (access : Access),
      Serial (history ++ [(i, access.event a)]) (access.apply a)

/-- The credentials that were added. -/
def additions (history : List (Nat × Event)) : List Credential :=
  history.filterMap (·.2.access.credential?)

/-- The copies that were taken. -/
def copies (history : List (Nat × Event)) : List (List Credential) :=
  history.filterMap (·.2.copy?)

namespace Serial

variable {history : List (Nat × Event)} {a : Aggregator}

/-- The aggregator holds what was added, in that order. -/
theorem results_eq (h : Serial history a) : a.results = additions history := by
  induction h with
  | nil => rfl
  | @next history a _ i access ih =>
    rw [results_apply, ih, additions, additions, List.filterMap_append]
    cases access <;> rfl

theorem copies_append (history : List (Nat × Event)) (a : Aggregator) (i : Nat) (access : Access) :
    copies (history ++ [(i, access.event a)]) = copies history ∨
      copies (history ++ [(i, access.event a)]) = copies history ++ [a.results] := by
  cases access <;> simp [copies, Access.event, Event.copy?]

/-- A copy is a prefix of what the aggregator holds from then on. -/
theorem prefix_of_mem_copies (h : Serial history a) : ∀ l ∈ copies history, l <+: a.results := by
  induction h with
  | nil => simp [copies]
  | @next history a _ i access ih =>
    have hgrows : a.results <+: (access.apply a).results := by
      rw [results_apply]
      exact List.prefix_append _ _
    intro l hl
    rcases copies_append history a i access with he | he <;> rw [he] at hl
    · exact (ih l hl).trans hgrows
    · rcases List.mem_append.1 hl with hl | hl
      · exact (ih l hl).trans hgrows
      · rw [List.mem_singleton.1 hl]
        exact hgrows

/-- Every copy is a prefix of the later ones. -/
theorem copies_pairwise (h : Serial history a) : (copies history).Pairwise (· <+: ·) := by
  induction h with
  | nil => exact .nil
  | @next history a h i access ih =>
    rcases copies_append history a i access with he | he <;> rw [he]
    · exact ih
    · refine List.pairwise_append.2 ⟨ih, List.pairwise_singleton _ _, ?_⟩
      intro l hl later hlater
      rw [List.mem_singleton.1 hlater]
      exact h.prefix_of_mem_copies l hl

/-- Every event is that of an access to what the events before it have left. -/
theorem exists_of_append (h : Serial history a) : ∀ earlier i event later,
    history = earlier ++ (i, event) :: later →
      ∃ b, ∃ access : Access, Serial earlier b ∧ event = access.event b := by
  induction h with
  | nil =>
    intro earlier i event later he
    simp at he
  | @next history a h j access ih =>
    intro earlier i event later he
    rcases List.eq_nil_or_concat later with rfl | ⟨later, last, rfl⟩
    · obtain ⟨rfl, hlast⟩ := List.append_inj' he rfl
      obtain ⟨-, rfl⟩ : j = i ∧ access.event a = event := by simpa using hlast
      exact ⟨a, access, h, rfl⟩
    · rw [List.concat_eq_append, ← List.cons_append, ← List.append_assoc] at he
      exact ih earlier i event later (List.append_inj' he rfl).1

/-- The aggregator is what the accesses make of an empty one. -/
theorem eq_foldl (h : Serial history a) :
    a = (history.map (·.2.access)).foldl (fun a access => access.apply a) .empty := by
  induction h with
  | nil => rfl
  | @next history a _ i access ih => simp [← ih]

end Serial

end Keyring.Aggregator
