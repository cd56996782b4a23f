import Keyring.Proofs.Yaml.Lines
/-!
# The tokens up to the private key

A metadata file may start with its type and a private key between quotes. The scan delivers the same
tokens for both whatever follows, and goes on in a state that knows of the private key only how long it
is (`delivers_head`). So the tokens of two such texts differ in one scalar (`tokens_head`).
-/

namespace Keyring.Yaml

open Yaml.Scan

/-- A metadata file up to the end of its private key, which is between quotes. -/
def head (key : List Char) : List Char :=
  "type: file-raw\nprivateKey: \"".toList ++ key ++ ['"']

/-- The place of the opening quote. -/
def quoteMark : Mark := ⟨27, 1, 12⟩

/-- The token of the private key. -/
def keyToken (key : List Char) : Token :=
  ⟨.scalar key false, quoteMark, quoteMark.right (key.length + 2)⟩

/-- The tokens before it. -/
def tokensBeforeKey : List Token :=
  keyTokens false "type".toList ⟨0, 0, 0⟩ ++ ⟨.scalar "file-raw".toList true, ⟨6, 0, 6⟩, ⟨15, 1, 0⟩⟩ ::
    keyTokens true "privateKey".toList ⟨15, 1, 0⟩

variable {key more : List Char}

namespace Scan

/-- The scan after a private key of `length` characters. -/
def afterHead (length : Nat) (more : List Char) : Scan :=
  atMargin true ⟨more, quoteMark.right (length + 2)⟩ 9 false

/-- A line with a plain value, and one with a quoted value, which anything may follow. -/
theorem delivers_quoted {a b c : List Char} (ha : IsPlainWord a) (ha' : a.length ≤ keyReach)
    (hb : IsPlainWord b) (hc : IsPlainWord c) (hc' : c.length ≤ keyReach) (hkey : IsWord key)
    (more : List Char) {m n : Mark} (hm : m.column = 0)
    (hn : n = ((m.right (a.length + 1)).right (1 + b.length)).below) :
    (atMargin false ⟨a ++ ':' :: ' ' :: (b ++ '\n' :: (c ++ ':' :: ' ' :: Quote.double.char ::
        (key ++ Quote.double.char :: more))), m⟩ 0 true).Delivers
      (keyTokens false a m ++
        (⟨.scalar b true, (m.right (a.length + 1)).right 1, n⟩ :: keyTokens true c n ++
          [⟨.scalar key false, (n.right (c.length + 1)).right 1,
            (n.right (c.length + 1)).right (1 + (key.length + 2))⟩]))
      (atMargin true ⟨more, (n.right (c.length + 1)).right (1 + (key.length + 2))⟩ 9 false) := by
  subst hn
  have hstart : StartsLine (c ++ ':' :: ' ' :: Quote.double.char ::
      (key ++ Quote.double.char :: more)) :=
    hc.startsLine_append _
  have hne (w rest : List Char) : w ++ ':' :: rest ≠ [] := by simp
  refine (delivers_key rfl rfl (hne _ _) (fetch_key_start ha hm false 0) ha' hm).trans ?_
  refine (delivers_of_fetch rfl rfl (fetch_plain_line hb hstart _ _) rfl (by simp)).trans
    ((delivers_key rfl rfl (hne _ _) (fetch_key_start hc rfl true _) hc' rfl).trans ?_)
  exact delivers_of_fetch rfl rfl (fetch_quoted (q := .double) hkey nofun _ _) rfl (by simp)

theorem head_append (key more : List Char) : head key ++ more =
    "type".toList ++ ':' :: ' ' :: ("file-raw".toList ++ '\n' :: ("privateKey".toList ++ ':' :: ' ' ::
      Quote.double.char :: (key ++ Quote.double.char :: more))) := by
  have hwords : "type: file-raw\nprivateKey: \"".toList = "type".toList ++ ':' :: ' ' ::
      ("file-raw".toList ++ '\n' :: ("privateKey".toList ++ [':', ' ', '"'])) := by decide
  unfold head
  rewrite [hwords]
  generalize "type".toList = a, "file-raw".toList = b, "privateKey".toList = c
  simp [Quote.char]

theorem delivers_head (hkey : IsWord key) (more : List Char) :
    (ofText (head key ++ more)).Delivers (tokensBeforeKey ++ [keyToken key])
      (afterHead key.length more) := by
  have hfinish : ((⟨15, 1, 0⟩ : Mark).right ("privateKey".toList.length + 1)).right
      (1 + (key.length + 2)) = quoteMark.right (key.length + 2) := by
    have hlength : "privateKey".toList.length = 10 := by decide
    simp only [hlength, Mark.right, quoteMark, Mark.mk.injEq, true_and]
    omega
  have hdelivers := delivers_quoted (a := "type".toList) (b := "file-raw".toList)
    (c := "privateKey".toList) (by decide) (by decide) (by decide) (by decide) (by decide) hkey more
    (m := ⟨0, 0, 0⟩) (n := ⟨15, 1, 0⟩) rfl (by decide)
  rewrite [hfinish] at hdelivers
  rewrite [head_append, tokensBeforeKey, List.append_assoc]
  exact hdelivers

end Scan

/-- What holds of the characters up to the private key and of all word characters. -/
theorem of_mem_head {p : Char → Bool}
    (hwords : "type: file-raw\nprivateKey: \"".toList.all p = true) (hquote : p '"' = true)
    (hword : ∀ c, isWordChar c = true → p c = true) (hkey : IsWord key) :
    ∀ c ∈ head key, p c = true := by
  intro c hc
  rcases List.mem_append.1 hc with hc | hc
  · rcases List.mem_append.1 hc with hc | hc
    · exact List.all_eq_true.1 hwords c hc
    · exact hword c (hkey c hc)
  · obtain rfl := List.mem_singleton.1 hc
    exact hquote

theorem isAcceptable_head (hkey : IsWord key) : ∀ c ∈ head key, isAcceptable c = true :=
  of_mem_head (by decide +kernel) (by decide) (fun _ => of_isWordChar (by decide +kernel)) hkey

theorem findIdx?_head (hkey : IsWord key) (more : List Char) :
    (head key ++ more).findIdx? (!isAcceptable ·) =
      (more.findIdx? (!isAcceptable ·)).map (· + (head key).length) := by
  have hnone : (head key).findIdx? (!isAcceptable ·) = none := by
    rw [List.findIdx?_eq_none_iff]
    intro c hc
    rw [isAcceptable_head hkey c hc]
    rfl
  rw [List.findIdx?_append, hnone, Option.none_or]

theorem length_head (key : List Char) : (head key).length = key.length + 29 := by
  have hwords : "type: file-raw\nprivateKey: \"".toList.length = 28 := by decide
  unfold head
  rewrite [List.length_append, List.length_append, hwords]
  change 28 + key.length + 1 = key.length + 29
  omega

/-- The tokens of texts with private keys of one length are the same but for that of the private key, or
none for the same character. -/
theorem tokens_head (length : Nat) (more : List Char) :
    (∃ c position, ∀ key, IsWord key → key.length = length →
      tokens (head key ++ more) = ([], some (.character c position))) ∨
    ∃ ts fault?, ∀ key, IsWord key → key.length = length →
      tokens (head key ++ more) = (tokensBeforeKey ++ keyToken key :: ts, fault?) := by
  cases hmore : more.findIdx? (!isAcceptable ·) with
  | some i =>
    refine .inl ⟨more.getD i '\x00', i + (length + 29), fun key hkey hlength => ?_⟩
    have hplace : (head key).length = length + 29 := by rw [length_head, hlength]
    have hchar : (head key ++ more).getD (i + (length + 29)) '\x00' = more.getD i '\x00' := by
      rw [List.getD_eq_getElem?_getD, List.getD_eq_getElem?_getD, ← hplace,
        List.getElem?_append_right (Nat.le_add_left _ _), Nat.add_sub_cancel]
    rw [tokens, findIdx?_head hkey, hmore]
    simp only [Option.map_some, hplace, hchar]
  | none =>
    refine .inr ⟨((Scan.afterHead length more).deliver (4 * (length + 29 + more.length) - 1)).1,
      ((Scan.afterHead length more).deliver (4 * (length + 29 + more.length) - 1)).2,
      fun key hkey hlength => ?_⟩
    have hfuel : 4 * (head key ++ more).length + 8 = (tokensBeforeKey ++ [keyToken key]).length +
        (4 * (length + 29 + more.length) - 1) := by
      rw [List.length_append, length_head, hlength]
      change _ = 9 + _
      omega
    rw [tokens, findIdx?_head hkey, hmore, Option.map_none]
    simp only
    rw [hfuel, Scan.delivers_head hkey, hlength, List.append_assoc]
    rfl

end Keyring.Yaml
