/-!
# Lists of entries

Where the order of keys shows, keys and values are kept as a list of pairs and found with
`List.lookup`. `Entries.set` keeps the place of a key that is there; the lemmas say what a look-up
finds after it, and after entries were left out.
-/

namespace Keyring.Entries

variable {α β : Type} [BEq α] [LawfulBEq α]

/-- Gives a key a value: the key that is there keeps its place, a new one comes last. -/
def set {α β : Type} [BEq α] (k : α) (v : β) : List (α × β) → List (α × β)
  | [] => [(k, v)]
  | (l, w) :: rest => if l == k then (l, v) :: rest else (l, w) :: set k v rest

theorem lookup_cons_of_ne {k l : α} (h : k ≠ l) (v : β) (es : List (α × β)) :
    ((l, v) :: es).lookup k = es.lookup k := by
  simp [List.lookup_cons, beq_eq_false_iff_ne.2 h]

theorem lookup_set_self (k : α) (v : β) (es : List (α × β)) :
    (set k v es).lookup k = some v := by
  induction es with
  | nil => simp [set]
  | cons e es ih =>
    obtain ⟨m, w⟩ := e
    simp only [set]
    split
    · next hm => simp [eq_of_beq hm]
    · next hm => rw [lookup_cons_of_ne (fun h => hm (by simp [h])), ih]

theorem lookup_set_of_ne {k l : α} (h : l ≠ k) (v : β) (es : List (α × β)) :
    (set k v es).lookup l = es.lookup l := by
  induction es with
  | nil => simp [set, lookup_cons_of_ne h]
  | cons e es ih =>
    obtain ⟨m, w⟩ := e
    simp only [set]
    split
    · next hm => rw [eq_of_beq hm, lookup_cons_of_ne h, lookup_cons_of_ne h]
    · simp only [List.lookup_cons, ih]

/-- No key is lost, and a new one comes last. -/
theorem keys_set (k : α) (v : β) (es : List (α × β)) :
    (set k v es).map (·.1) =
      if (es.map (·.1)).contains k then es.map (·.1) else es.map (·.1) ++ [k] := by
  induction es with
  | nil => simp [set]
  | cons e es ih =>
    obtain ⟨m, w⟩ := e
    simp only [set]
    split
    · next hm => simp [eq_of_beq hm]
    · next hm =>
      have hk : k ≠ m := fun h => hm (by simp [h])
      rw [List.map_cons, List.map_cons, ih, List.contains_cons, beq_eq_false_iff_ne.2 hk,
        Bool.false_or]
      split <;> rfl

theorem lookup_filter {p : α → Bool} {k : α} (h : p k = true) (es : List (α × β)) :
    (es.filter fun e => p e.1).lookup k = es.lookup k := by
  induction es with
  | nil => rfl
  | cons e es ih =>
    obtain ⟨l, v⟩ := e
    by_cases hl : p l = true
    · rw [List.filter_cons_of_pos (by simpa using hl)]
      simp only [List.lookup_cons, ih]
    · have hk : k ≠ l := fun hk => hl (hk ▸ h)
      rw [List.filter_cons_of_neg (by simpa using hl), lookup_cons_of_ne hk, ih]

theorem lookup_filter_of_not {p : α → Bool} {k : α} (h : p k = false) (es : List (α × β)) :
    (es.filter fun e => p e.1).lookup k = none := by
  induction es with
  | nil => rfl
  | cons e es ih =>
    obtain ⟨l, v⟩ := e
    by_cases hl : p l = true
    · have hk : k ≠ l := fun hk => by simp [hk, hl] at h
      rw [List.filter_cons_of_pos (by simpa using hl), lookup_cons_of_ne hk, ih]
    · rw [List.filter_cons_of_neg (by simpa using hl), ih]

theorem mem_of_lookup {k : α} {v : β} {es : List (α × β)} (h : es.lookup k = some v) :
    (k, v) ∈ es := by
  obtain ⟨before, after, rfl, -⟩ := List.lookup_eq_some_iff.1 h
  simp

/-- Where no key comes twice, the entries are what the look-ups find. -/
theorem mem_iff_lookup {k : α} {v : β} {es : List (α × β)} (h : (es.map Prod.fst).Nodup) :
    (k, v) ∈ es ↔ es.lookup k = some v := by
  induction es with
  | nil => simp
  | cons e es ih =>
    obtain ⟨l, w⟩ := e
    obtain ⟨hl, hes⟩ := List.nodup_cons.1 h
    by_cases hk : k = l
    · subst hk
      have hv : (k, v) ∉ es := fun hm => hl (List.mem_map.2 ⟨(k, v), hm, rfl⟩)
      simp [hv, eq_comm]
    · rw [lookup_cons_of_ne hk, ← ih hes]
      simp [hk]

end Keyring.Entries
