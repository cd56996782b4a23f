import Keyring.Proofs.Yaml.PrivateKey.Nodes
import Keyring.Proofs.Yaml.PrivateKey.Values
/-!
# Documents that differ in the private key

Texts that start with a type and private keys of one length have the same fault or are mappings that give
all keys the same values, `privateKey` apart (`read_head`, `Document.Twin.get?`).
-/

namespace Keyring.Yaml

open Outcome

/-- Two documents that differ in the private key. -/
structure Document.Twin (key key' : List Char) (d d' : Document) : Prop where
  top : d.top = .box 0 ∧ d'.top = .box 0
  boxes_size : d'.boxes.size = d.boxes.size
  boxes_pos : 0 < d.boxes.size
  boxes : ∀ i, Option.Rel (BoxTwin key key' i) d.boxes[i]? d'.boxes[i]?

namespace Document

variable {key key' : List Char} {d d' : Document}

namespace Twin

/-- A value that is not the topmost mapping unfolds to the same. -/
theorem unfold_eq (h : Twin key key' d d') (fuel : Nat) :
    ∀ passed v, v.IsInner → unfold d'.boxes fuel passed v = unfold d.boxes fuel passed v := by
  induction fuel with
  | zero => intro passed v _; cases v <;> rfl
  | succ fuel ih =>
    intro passed v hv
    cases v with
    | scalar d identity? => rfl
    | box i =>
      have hi : 0 < i := hv
      have hbox := h.boxes i
      unfold unfold
      dsimp only
      revert hbox
      generalize d.boxes[i]? = b?, d'.boxes[i]? = b?'
      rintro (⟨_ | ⟨-, hinner⟩⟩ | _)
      -- Box 0 is the topmost mapping, and `v` is not.
      · omega
      · rename_i b
        cases b with
        | list items =>
          simp only
          split
          · rfl
          · exact congrArg Datum.list (List.map_congr_left fun v hv => ih _ v (hinner v hv))
        | pairs items =>
          simp only
          split
          · rfl
          · refine congrArg Datum.list (List.map_congr_left fun p hp => ?_)
            obtain ⟨ha, hb⟩ := hinner p hp
            rw [ih _ _ ha, ih _ _ hb]
        | mapping es =>
          simp only
          split
          · rfl
          · refine congrArg Datum.mapping (List.map_congr_left fun e he => ?_)
            rw [ih _ _ (hinner e he)]
        | set items => rfl
      · rfl

/-- Both documents are mappings. -/
theorem entries? (h : Twin key key' d d') : ∃ es es', d.entries? = some es ∧ d'.entries? = some es' ∧
    List.Forall₂ (EntryTwin key key' 0) es es' := by
  obtain ⟨htop, htop'⟩ := h.top
  have hbox := h.boxes 0
  have hpos := h.boxes_pos
  rw [Array.getElem?_eq_getElem hpos] at hbox
  unfold Document.entries?
  rw [htop, htop']
  dsimp only
  rw [Array.getElem?_eq_getElem hpos]
  revert hbox
  generalize d.boxes[0] = b, d'.boxes[0]? = b?'
  rintro (⟨hes⟩)
  cases hes with
  | top hes => exact ⟨_, _, rfl, rfl, hes⟩
  | inner hlt => omega

/-- A search by keys finds twin entries. -/
theorem find?_rel {p : Key × Value → Bool} (hp : ∀ k v v', p (k, v) = p (k, v'))
    {es es' : List (Key × Value)} (h : List.Forall₂ (EntryTwin key key' 0) es es') :
    Option.Rel (EntryTwin key key' 0) (es.find? p) (es'.find? p) := by
  induction h with
  | nil => exact .none
  | @cons e e' es es' he _ ih =>
    have hsame : p e' = p e := by cases he <;> exact hp _ _ _
    rw [List.find?_cons, List.find?_cons, hsame]
    split
    · exact .some he
    · exact ih

/-- The key of the entry is the text `k`. -/
def isNamed (k : String) (e : Key × Value) : Bool :=
  match e.1.datum with
  | .str s => s == k
  | _ => false

/-- Every key but that of the private key has the same value. -/
theorem get? (h : Twin key key' d d') (k : String) : d'.get? k = d.get? k ∨
    k = "privateKey" ∧ d.get? k = some (.str (String.ofList key)) ∧
      d'.get? k = some (.str (String.ofList key')) := by
  obtain ⟨es, es', hes, hes', hentries⟩ := h.entries?
  have hget : d.get? k = (es.find? (isNamed k)).map fun e => d.datum e.2 := by rw [Document.get?, hes]; rfl
  have hget' : d'.get? k = (es'.find? (isNamed k)).map fun e => d'.datum e.2 := by
    rw [Document.get?, hes']; rfl
  rw [hget, hget']
  have hrel := find?_rel (p := isNamed k) (fun _ _ _ => rfl) hentries
  revert hrel
  cases hfind : es.find? (isNamed k) with
  | none =>
    generalize es'.find? (isNamed k) = o
    rintro ⟨⟩
    exact .inl rfl
  | some e =>
    generalize es'.find? (isNamed k) = o
    rintro ⟨he⟩
    cases he with
    | same hinner =>
      refine .inl (congrArg some ?_)
      simp only [datum, h.boxes_size]
      exact h.unfold_eq _ _ _ hinner
    | @privateKey l _ hl =>
      refine .inr ⟨?_, rfl, rfl⟩
      have hnamed := List.find?_some hfind
      simp only [isNamed, hl] at hnamed
      exact (eq_of_beq hnamed).symm

end Twin

theorem ofGraph_twin {g g' : Graph} (h : Graph.Twin key key' g g') :
    Alike (Document.Twin key key') (ofGraph g (some 0)) (ofGraph g' (some 0)) := by
  have hall : Alike (fun r r' => (r.1 = .box 0 ∧ r'.1 = .box 0) ∧ Maker.Twin key key' r.2 r'.2)
      ((do
        let top ← Make.value 0
        Make.fillAll (2 * g.size + 2) []
        pure top : Make Value).run ⟨g, Array.replicate g.size none, #[], []⟩)
      ((do
        let top ← Make.value 0
        Make.fillAll (2 * g'.size + 2) []
        pure top : Make Value).run ⟨g', Array.replicate g'.size none, #[], []⟩) := by
    rw [StateT.run_bind, StateT.run_bind]
    refine (Make.value_root_twin h).bind ?_
    rintro ⟨top, m⟩ ⟨top', m'⟩ ⟨htop, hm⟩
    have hfill : Make.Steady key key' (fun _ => True) (Make.fillAll (2 * g.size + 2) []) :=
      Make.steady_fillAll _ (by simp)
    rw [h.size]
    exact Lockstep.bind (Q := fun v v' : Value => v = .box 0 ∧ v' = .box 0) hfill
      (fun _ _ _ => lockstep_pure htop) m m' hm
  unfold ofGraph
  refine hall.bind ?_
  rintro ⟨top, m⟩ ⟨top', m'⟩ ⟨htop, hm⟩
  exact .ok ⟨htop, hm.boxes_size, hm.boxes_pos, hm.boxes⟩

/-- Texts that start with private keys of one length read as such documents, or have the same fault. -/
theorem read_head (hkey : IsWord key) (hkey' : IsWord key') (hlength : key'.length = key.length)
    (more : List Char) :
    Alike (Document.Twin key key') (Document.read (head key ++ more))
      (Document.read (head key' ++ more)) := by
  refine (compose_head hkey hkey' hlength more).bind ?_
  rintro ⟨g, root?⟩ ⟨g', root?'⟩ ⟨⟨hroot', hroot⟩, h⟩
  obtain rfl : root? = some 0 := hroot
  obtain rfl : root?' = some 0 := hroot'
  exact ofGraph_twin h

end Document

end Keyring.Yaml
