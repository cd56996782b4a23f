import Keyring.Proofs.Yaml.Compose
/-!
# Graphs that differ in one text

The graphs of two texts that start with a type and a private key have the same nodes but for the text of
node 4, the private key. Only the topmost mapping, node 0, refers to that node, as the value of
`privateKey`, and nothing refers to the topmost mapping: all other nodes refer to nodes from number 5 on.
-/

namespace Keyring.Yaml

/-- The content refers to nodes from number 5 on only. -/
def Content.IsLater : Content → Prop
  | .scalar _ => True
  | .sequence items => ∀ i ∈ items, 5 ≤ i
  | .mapping entries => ∀ e ∈ entries, 5 ≤ e.1 ∧ 5 ≤ e.2

/-- An entry of the topmost mapping: the type, the private key, or one of later nodes. -/
def IsTopEntry (e : Nat × Nat) : Prop :=
  e = (1, 2) ∨ e = (3, 4) ∨ 5 ≤ e.1 ∧ 5 ≤ e.2

/-- The number is one of a mapping that may refer to others. -/
def IsPlace (i : Nat) : Prop :=
  i = 0 ∨ 5 ≤ i

/-- The graphs `g` and `g'` of two texts that differ in their private keys. -/
structure Graph.Twin (key key' : List Char) (g g' : Graph) : Prop where
  size : g'.size = g.size
  same : ∀ i, i ≠ 4 → g'[i]? = g[i]?
  key : ∃ m, g[4]? = some ⟨strTag, .scalar key, m⟩ ∧ g'[4]? = some ⟨strTag, .scalar key', m⟩
  top : ∃ n es, g[0]? = some n ∧ n.tag = mapTag ∧ n.content = .mapping es ∧ ∀ e ∈ es, IsTopEntry e
  typeKey : IsText g 1 "type".toList
  typeValue : IsText g 2 "file-raw".toList
  keyKey : IsText g 3 "privateKey".toList
  later : ∀ i n, 5 ≤ i → g[i]? = some n → n.content.IsLater

namespace Graph.Twin

variable {key key' : List Char} {g g' : Graph} {i : Nat} {n : Node}

theorem five_le_size (h : Twin key key' g g') : 5 ≤ g.size := by
  obtain ⟨m, hm, -⟩ := h.key
  exact (Array.getElem?_eq_some_iff.1 hm).1

/-- What does not look at the text of a scalar is the same for both graphs. -/
theorem map_eq {α : Type} {f : Node → α}
    (hf : ∀ tag cs cs' m, f ⟨tag, .scalar cs, m⟩ = f ⟨tag, .scalar cs', m⟩) (h : Twin key key' g g')
    (i : Nat) : g'[i]?.map f = g[i]?.map f := by
  by_cases hi : i = 4
  · subst hi
    obtain ⟨m, hm, hm'⟩ := h.key
    rw [hm, hm', Option.map_some, Option.map_some, hf]
  · rw [h.same i hi]

/-- Each node is the topmost, a text or a later one. -/
theorem isText_or_later (h : Twin key key' g g') (hi : i ≠ 0) : (∃ w, IsText g i w) ∨ 5 ≤ i :=
  match i, hi with
  | 1, _ => .inl ⟨_, h.typeKey⟩
  | 2, _ => .inl ⟨_, h.typeValue⟩
  | 3, _ => .inl ⟨_, h.keyKey⟩
  | 4, _ =>
    have ⟨_, hn, _⟩ := h.key
    .inl ⟨_, _, hn, rfl, rfl⟩
  | _ + 5, _ => .inr (Nat.le_add_left _ _)

/-- No node but the topmost refers to the first nodes. -/
theorem isLater (h : Twin key key' g g') (hi : i ≠ 0) (hn : g[i]? = some n) : n.content.IsLater := by
  rcases h.isText_or_later hi with ⟨w, m, hm, -, hc⟩ | hlater
  · obtain rfl := Option.some.inj (hm.symm.trans hn)
    rw [hc]
    trivial
  · exact h.later i n hlater hn

theorem push (h : Twin key key' g g') (hn : n.content.IsLater) :
    Twin key key' (g.push n) (g'.push n) := by
  have hsize := h.five_le_size
  have hextends := extends_push g n
  have hold {i : Nat} (hi : i < g.size) : (g.push n)[i]? = g[i]? := by
    rw [Array.getElem?_push, if_neg (by omega)]
  obtain ⟨m, hm, hm'⟩ := h.key
  obtain ⟨top, es, htop, hrest⟩ := h.top
  constructor
  case size => simp [h.size]
  case same =>
    intro i hi
    rw [Array.getElem?_push, Array.getElem?_push, h.size, h.same i hi]
  case key => exact ⟨m, hextends 4 _ hm, extends_push g' n 4 _ hm'⟩
  case top => exact ⟨top, es, hextends 0 _ htop, hrest⟩
  case typeKey => exact h.typeKey.extends hextends
  case typeValue => exact h.typeValue.extends hextends
  case keyKey => exact h.keyKey.extends hextends
  case later =>
    intro i n' hi hn'
    rw [Array.getElem?_push] at hn'
    split at hn'
    · rw [← Option.some.inj hn']
      exact hn
    · exact h.later i n' hi hn'

/-- The topmost mapping or a later node may be changed. -/
theorem modifyAt (h : Twin key key' g g') (hi : IsPlace i) {f : Node → Node}
    (htop : ∃ n es, (g.modify i f)[0]? = some n ∧ n.tag = mapTag ∧ n.content = .mapping es ∧
      ∀ e ∈ es, IsTopEntry e)
    (hlater : ∀ j n, 5 ≤ j → (g.modify i f)[j]? = some n → n.content.IsLater) :
    Twin key key' (g.modify i f) (g'.modify i f) := by
  have hold (g : Graph) {j : Nat} (hj : 0 < j) (hj' : j < 5) : (g.modify i f)[j]? = g[j]? := by
    have hne : i ≠ j := by rcases hi with hi | hi <;> omega
    rw [Array.getElem?_modify, if_neg hne]
  have htext {j : Nat} {w : List Char} (hj : 0 < j) (hj' : j < 5) (ht : IsText g j w) :
      IsText (g.modify i f) j w := by
    rw [IsText, hold g hj hj']
    exact ht
  constructor
  case size => simp [h.size]
  case same =>
    intro j hj
    rw [Array.getElem?_modify, Array.getElem?_modify, h.same j hj]
  case key =>
    rw [hold g (by omega) (by omega), hold g' (by omega) (by omega)]
    exact h.key
  case top => exact htop
  case typeKey => exact htext (by omega) (by omega) h.typeKey
  case typeValue => exact htext (by omega) (by omega) h.typeValue
  case keyKey => exact htext (by omega) (by omega) h.keyKey
  case later => exact hlater

theorem modify (h : Twin key key' g g') (hi : 5 ≤ i) {f : Node → Node}
    (hf : ∀ n, n.content.IsLater → (f n).content.IsLater) :
    Twin key key' (g.modify i f) (g'.modify i f) := by
  refine h.modifyAt (.inr hi) ?_ fun j n hj hn => ?_
  · rw [Array.getElem?_modify, if_neg (by omega)]
    exact h.top
  · rw [Array.getElem?_modify] at hn
    split at hn
    · obtain ⟨n', hn', rfl⟩ := Option.map_eq_some_iff.1 hn
      exact hf n' (h.later j n' hj hn')
    · exact h.later j n hj hn

/-- The topmost mapping may get other entries. -/
theorem setTop (h : Twin key key' g g') {es : List (Nat × Nat)} (hes : ∀ e ∈ es, IsTopEntry e) :
    Twin key key' (g.modify 0 fun n => { n with content := .mapping es })
      (g'.modify 0 fun n => { n with content := .mapping es }) := by
  obtain ⟨top, _, htop, htag, -⟩ := h.top
  refine h.modifyAt (.inl rfl) ⟨{ top with content := .mapping es }, es, ?_, htag, rfl, hes⟩ ?_
  · rw [Array.getElem?_modify, if_pos rfl, htop]
    rfl
  · intro j n hj hn
    rw [Array.getElem?_modify, if_neg (by omega)] at hn
    exact h.later j n hj hn

end Graph.Twin

end Keyring.Yaml
