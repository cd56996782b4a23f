/-!
# Regular patterns

A pattern describes a set of texts: `Matches` says which ones, by the rules of its form. `accepts`
decides it by taking, for each character, the pattern of what may follow.
-/

namespace Keyring.Yaml

/-- A regular pattern over characters. -/
inductive Pattern where
  /-- No text. -/
  | never
  /-- The empty text. -/
  | nothing
  /-- One character that satisfies the test. -/
  | one (p : Char → Bool)
  | seq (a b : Pattern)
  | alt (a b : Pattern)
  /-- Any number of repetitions. -/
  | many (a : Pattern)

namespace Pattern

/-- The texts that a pattern describes. -/
inductive Matches : Pattern → List Char → Prop where
  | nothing : Matches nothing []
  | one {p c} : p c = true → Matches (one p) [c]
  | seq {a b s t} : Matches a s → Matches b t → Matches (seq a b) (s ++ t)
  | left {a b s} : Matches a s → Matches (alt a b) s
  | right {a b s} : Matches b s → Matches (alt a b) s
  | stop {a} : Matches (many a) []
  | more {a s t} : Matches a s → Matches (many a) t → Matches (many a) (s ++ t)

/-- Whether the empty text matches. -/
def nullable : Pattern → Bool
  | never => false
  | nothing => true
  | one _ => false
  | seq a b => a.nullable && b.nullable
  | alt a b => a.nullable || b.nullable
  | many _ => true

/-- One pattern after the other, with nothing after an impossible one. -/
def thenSeq : Pattern → Pattern → Pattern
  | never, _ => never
  | nothing, b => b
  | a, b => seq a b

/-- Either of two patterns, without impossible ones. -/
def either : Pattern → Pattern → Pattern
  | never, b => b
  | a, never => a
  | a, b => alt a b

/-- What may follow the character `c`. -/
def after (c : Char) : Pattern → Pattern
  | never => never
  | nothing => never
  | one p => if p c then nothing else never
  | seq a b =>
    let first := (a.after c).thenSeq b
    if a.nullable then first.either (b.after c) else first
  | alt a b => (a.after c).either (b.after c)
  | many a => (a.after c).thenSeq (many a)

/-- Whether a text matches. -/
def accepts (a : Pattern) : List Char → Bool
  | [] => a.nullable
  | c :: cs => (a.after c).accepts cs

/-! ## Forms built from these -/

/-- The character `c`. -/
def char (c : Char) : Pattern := one (· == c)

/-- One of the characters of `s`. -/
def oneOf (s : String) : Pattern := one fun c => s.toList.contains c

/-- The pattern or nothing. -/
def optional (a : Pattern) : Pattern := alt a nothing

/-- At least one repetition. -/
def some (a : Pattern) : Pattern := seq a (many a)

/-- The text `s`. -/
def text (s : String) : Pattern := s.toList.foldr (fun c a => seq (char c) a) nothing

/-- All of the patterns, one after the other. -/
def all (parts : List Pattern) : Pattern := parts.foldr seq nothing

/-- Any of the patterns. -/
def any (parts : List Pattern) : Pattern := parts.foldr alt never

/-- `n` repetitions. -/
def times (n : Nat) (a : Pattern) : Pattern := all (List.replicate n a)

/-! ## `accepts` decides `Matches` -/

theorem nullable_iff {a : Pattern} : a.nullable = true ↔ Matches a [] := by
  induction a with
  | never => simp only [nullable]; exact ⟨fun h => (nomatch h), fun h => nomatch h⟩
  | nothing => exact ⟨fun _ => .nothing, fun _ => rfl⟩
  | one p => simp only [nullable]; exact ⟨fun h => (nomatch h), fun h => nomatch h⟩
  | seq a b iha ihb =>
    simp only [nullable, Bool.and_eq_true, iha, ihb]
    constructor
    · intro h; exact .seq h.1 h.2
    · intro h
      generalize hs : ([] : List Char) = s at h
      cases h with
      | seq h₁ h₂ =>
        obtain ⟨rfl, rfl⟩ := List.append_eq_nil_iff.1 hs.symm
        exact ⟨h₁, h₂⟩
  | alt a b iha ihb =>
    simp only [nullable, Bool.or_eq_true, iha, ihb]
    constructor
    · rintro (h | h)
      · exact .left h
      · exact .right h
    · intro h
      cases h with
      | left h => exact .inl h
      | right h => exact .inr h
  | many a _ => exact ⟨fun _ => .stop, fun _ => rfl⟩

theorem matches_thenSeq {a b : Pattern} {s : List Char} :
    Matches (a.thenSeq b) s ↔ Matches (seq a b) s := by
  cases a with
  | never =>
    simp only [thenSeq]
    exact ⟨fun h => (nomatch h), fun h => by cases h with | seq h _ => nomatch h⟩
  | nothing =>
    simp only [thenSeq]
    constructor
    · intro h; exact .seq (s := []) .nothing h
    · intro h
      cases h with
      | seq h₁ h₂ => cases h₁; exact h₂
  | one => exact Iff.rfl
  | seq => exact Iff.rfl
  | alt => exact Iff.rfl
  | many => exact Iff.rfl

theorem matches_alt {a b : Pattern} {s : List Char} :
    Matches (alt a b) s ↔ Matches a s ∨ Matches b s := by
  constructor
  · intro h
    cases h with
    | left h => exact .inl h
    | right h => exact .inr h
  · rintro (h | h)
    · exact .left h
    · exact .right h

theorem not_matches_never {s : List Char} : ¬ Matches never s := nofun

theorem matches_either {a b : Pattern} {s : List Char} :
    Matches (a.either b) s ↔ Matches a s ∨ Matches b s := by
  rw [← matches_alt]
  cases a <;> cases b <;> simp [either, matches_alt, not_matches_never]

/-- The texts that match `a.after c` are those that match `a` with `c` in front. -/
theorem matches_after {a : Pattern} {c : Char} {s : List Char} :
    Matches (a.after c) s ↔ Matches a (c :: s) := by
  induction a generalizing s with
  | never => simp only [after]; exact ⟨fun h => (nomatch h), fun h => nomatch h⟩
  | nothing => simp only [after]; exact ⟨fun h => (nomatch h), fun h => nomatch h⟩
  | one p =>
    simp only [after]
    by_cases hp : p c = true
    · simp only [hp, if_true]
      constructor
      · intro h; cases h; exact .one hp
      · intro h; cases h; exact .nothing
    · simp only [hp]
      constructor
      · intro h; exact (not_matches_never h).elim
      · intro h; cases h; exact (hp ‹_›).elim
  | seq a b iha ihb =>
    have step : Matches (seq a b) (c :: s) ↔
        Matches (seq (a.after c) b) s ∨ (a.nullable = true ∧ Matches (b.after c) s) := by
      constructor
      · intro h
        generalize hs : c :: s = t at h
        cases h with
        | @seq _ _ u v hu hv =>
          cases u with
          | nil =>
            subst hs
            exact .inr ⟨nullable_iff.2 hu, ihb.2 hv⟩
          | cons d u =>
            simp only [List.cons_append, List.cons.injEq] at hs
            obtain ⟨rfl, rfl⟩ := hs
            exact .inl (.seq (iha.2 hu) hv)
      · rintro (h | ⟨hn, h⟩)
        · cases h with
          | seq hu hv => exact Matches.seq (iha.1 hu) hv
        · exact Matches.seq (s := []) (nullable_iff.1 hn) (ihb.1 h)
    rw [step]
    simp only [after]
    split
    · next hn => simp [matches_either, matches_thenSeq, hn]
    · next hn => simp [matches_thenSeq, hn]
  | alt a b iha ihb => simp only [after, matches_either, iha, ihb, matches_alt]
  | many a iha =>
    simp only [after, matches_thenSeq]
    constructor
    · intro h
      cases h with
      | seq hu hv => exact Matches.more (iha.1 hu) hv
    · intro h
      generalize hs : c :: s = t at h
      generalize hp : many a = p at h
      induction h with
      | nothing => exact nomatch hp
      | one => exact nomatch hp
      | seq => exact nomatch hp
      | left => exact nomatch hp
      | right => exact nomatch hp
      | stop => exact nomatch hs
      | @more _ u v hu hv _ ih =>
        obtain rfl : a = _ := by injection hp
        cases u with
        | nil => exact ih (by simpa using hs) rfl
        | cons d u =>
          simp only [List.cons_append, List.cons.injEq] at hs
          obtain ⟨rfl, rfl⟩ := hs
          exact .seq (iha.2 hu) hv

theorem accepts_iff {a : Pattern} {s : List Char} : a.accepts s = true ↔ Matches a s := by
  induction s generalizing a with
  | nil => exact nullable_iff
  | cons c s ih => rw [accepts, ih, matches_after]

end Pattern

end Keyring.Yaml
