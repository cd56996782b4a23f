import Keyring.Proofs.Yaml.Values
/-!
# Documents of one plain scalar

A text of word characters, plus signs and colons that ends in no colon is one plain scalar
(`tokens_single`). If it has the tag of texts, the document is the text (`read_single`).
-/

namespace Keyring.Yaml

open Outcome

variable {c : Char} {w rest : List Char} {m : Mark}

/-! ## Texts that are one plain scalar -/

/-- Whether `c` is a character of words, a plus sign or a colon. -/
def isSingleChar (c : Char) : Bool :=
  isWordChar c || c == '+' || c == ':'

/-- What the seven-bit characters of these all satisfy, each of them satisfies. -/
theorem of_isSingleChar {p : Char → Bool}
    (hp : ∀ n : Fin 128, isSingleChar (Char.ofNat n) = true → p (Char.ofNat n) = true)
    (hc : isSingleChar c = true) : p c = true := by
  have hlt : c.toNat < 128 := by
    simp only [isSingleChar, Bool.or_eq_true, beq_iff_eq] at hc
    rcases hc with (hc | rfl) | rfl
    · exact toNat_lt_of_isWordChar hc
    all_goals decide
  have h := hp ⟨c.toNat, hlt⟩
  rw [Char.ofNat_toNat] at h
  exact h hc

/-- A plain scalar starts the text: with a letter, a digit or a low line, or with one of these after a
sign. -/
inductive StartsPlain : List Char → Prop
  | word {x : Char} {rest : List Char} (hx : isWordChar x = true) (hne : x ≠ '-') :
    StartsPlain (x :: rest)
  | signed {x y : Char} {rest : List Char} (hx : x = '-' ∨ x = '+') (hy : isWordChar y = true)
      (hne : y ≠ '-') : StartsPlain (x :: y :: rest)

/-- The text is one plain scalar. -/
structure IsSingle (w : List Char) : Prop where
  starts : StartsPlain w
  chars : ∀ c ∈ w, isSingleChar c = true
  last : w.getLast? ≠ some ':'

theorem IsSingle.ne_nil (hw : IsSingle w) : w ≠ [] := by
  have hstarts := hw.starts
  rintro rfl
  cases hstarts

theorem IsSingle.of_mem {p : Char → Bool} (hw : IsSingle w)
    (hp : ∀ n : Fin 128, isSingleChar (Char.ofNat n) = true → p (Char.ofNat n) = true) :
    ∀ c ∈ w, p c = true :=
  fun c hc => of_isSingleChar hp (hw.chars c hc)

theorem IsSingle.isNarrow (hw : IsSingle w) : IsNarrow w := by
  intro c hc
  simpa using hw.of_mem (p := fun c => !isBreak c && c.toNat != 0xFEFF) (by decide +kernel) c hc

/-- Without white space a plain scalar goes on to a colon at the end. -/
theorem plainRun_eq_self (hw : ∀ c ∈ w, isBlankOrEnd c = false) (hlast : w.getLast? ≠ some ':') :
    plainRun false w = w := by
  induction w with
  | nil => rfl
  | cons c w ih =>
    obtain ⟨hc, hw⟩ := List.forall_mem_cons.1 hw
    have hends : endsPlain false c w = false := by
      cases w with
      | nil =>
        have hcolon : c ≠ ':' := by simpa using hlast
        simp [endsPlain, hc, hcolon]
      | cons d w => simp [endsPlain, hc, hw d List.mem_cons_self]
    have hlast' : w.getLast? ≠ some ':' := by
      cases w with
      | nil => simp
      | cons d w => simpa using hlast
    rw [plainRun, hends, ih hw hlast']
    rfl

theorem IsSingle.readPlain (hw : IsSingle w) (indent : Int) (fuel : Nat) (m : Mark) :
    readPlain false indent (fuel + 1) ⟨w, m⟩ = some ⟨w, false, ⟨[], m.right w.length⟩⟩ := by
  have hblank : ∀ c ∈ w, isBlankOrEnd c = false := by
    simpa using hw.of_mem (p := fun c => !isBlankOrEnd c) (by decide +kernel)
  have hcomment : ∀ c ∈ w, c ≠ '#' := by
    simpa using hw.of_mem (p := fun c => c != '#') (by decide +kernel)
  have hrun : plainRun false (w ++ []) = w := by rw [List.append_nil, plainRun_eq_self hblank hw.last]
  have hread : Yaml.readPlain false indent (fuel + 1) ⟨w ++ [], m⟩ =
      some ⟨w, false, ⟨[], m.right w.length⟩⟩ := readPlain_run hrun hw.ne_nil
    (fun hc => hcomment _ (List.mem_of_head? hc) rfl) hw.isNarrow rfl (.inl rfl) fuel
  rwa [List.append_nil] at hread

namespace Scan

variable {s : Scan}

/-! ## The token at the cursor -/

theorem fetchHere_sign {x y : Char} (hc : s.cursor.rest = x :: y :: rest) (hx : x = '-' ∨ x = '+')
    (hy : isWordChar y = true) (hne : y ≠ '-') : s.fetchHere = s.fetchPlain := by
  have hpeek : s.cursor.peek = x := by rw [Cursor.peek, hc]; rfl
  have hnext : s.cursor.peekAt 1 = y := by rw [Cursor.peekAt, hc]; rfl
  have hblank := isBlankOrEnd_of_isWordChar hy
  have hplain : s.startsPlain = true := by
    rw [startsPlain, hpeek, hnext, hblank]
    generalize s.inFlow = flow
    rcases hx with rfl | rfl <;> revert flow <;> decide
  rcases hx with rfl | rfl <;>
    simp [fetchHere, hpeek, hnext, hblank, hplain, Cursor.atMarker, Cursor.startsWith, hc,
      List.isPrefixOf, hne.symm]

theorem fetchHere_startsPlain (h : StartsPlain s.cursor.rest) : s.fetchHere = s.fetchPlain := by
  generalize hc : s.cursor.rest = w at h
  cases h with
  | word hx hne => exact fetchHere_word hc hx hne
  | signed hx hy hne => exact fetchHere_sign hc hx hy hne

theorem atToken_single (hc : s.cursor.rest = w) (hw : IsSingle w) : AtToken s := by
  obtain ⟨x, w', hx⟩ := List.exists_cons_of_ne_nil hw.ne_nil
  have hpeek : s.cursor.peek = x := by rw [Cursor.peek, hc, hx]; rfl
  have hsingle : isSingleChar x = true := hw.chars x (by rw [hx]; exact List.mem_cons_self)
  have hall := of_isSingleChar (p := fun c => c != ' ' && c != '#' && !isBreak c && c.toNat != 0xFEFF)
    (by decide +kernel) hsingle
  simp only [Bool.and_eq_true, bne_iff_ne, Bool.not_eq_true'] at hall
  constructor <;> rw [hpeek]
  exacts [hall.1.1.1, hall.1.1.2, hall.1.2, hall.2]

/-! ## The scan -/

/-- The scan after the scalar `w` at the start of a text, which might still turn out a key. -/
def afterSingle (w : List Char) (m : Mark) : Scan :=
  { atMargin false ⟨[], m.right w.length⟩ 0 false with
    queue := [⟨.scalar w true, m, m.right w.length⟩]
    keys := [(0, ⟨0, false, m⟩)] }

theorem fetch_single (hw : IsSingle w) : (ofText w).fetch = .ok (afterSingle w ⟨0, 0, 0⟩) := by
  have hsave : (ofText w).saveKey = .ok { ofText w with keys := [(0, ⟨0, false, ⟨0, 0, 0⟩⟩)] } := rfl
  rw [(atToken_single rfl hw).fetch (dropStaleKeys_of_keys rfl),
    unwind_of_indent (show (-1 : Int) ≤ 0 by decide), fetchHere_startsPlain hw.starts]
  exact fetchPlain_eq hsave (hw.readPlain _ _ _)

/-- A scalar that is too long for a key is no longer waited for. -/
theorem dropStaleKeys_afterSingle (w : List Char) (m : Mark) :
    (afterSingle w m).dropStaleKeys = .ok (afterSingle w m) ∨
      (afterSingle w m).dropStaleKeys = .ok { afterSingle w m with keys := [] } := by
  have hkeys : (afterSingle w m).keys = [(0, ⟨0, false, m⟩)] := rfl
  rw [dropStaleKeys, hkeys]
  simp only [List.find?, List.filter, Bool.and_false]
  cases (afterSingle w m).isStale ⟨0, false, m⟩ with
  | false => exact .inl rfl
  | true => exact .inr rfl

theorem atToken_end (hc : s.cursor.rest = []) : AtToken s :=
  atToken_of_startsLine hc (by simp [StartsLine])

/-- The scan after the end of the text. -/
def atEnd (queue : List Token) (m : Mark) (taken : Nat) : Scan :=
  { atMargin false ⟨[], m⟩ taken false with queue := queue ++ [⟨.streamEnd, m, m⟩], finished := true }

theorem fetch_end (m : Mark) (taken : Nat) :
    (atMargin false ⟨[], m⟩ taken false).fetch = .ok (atEnd [] m taken) := by
  rw [(atToken_end rfl).fetch (dropStaleKeys_of_keys rfl), unwind_of_indent (indent_atMargin ..),
    fetchHere_end rfl]
  rfl

/-- The scalar turns out no key at the end of the text. -/
theorem fetch_afterSingle (hd : (afterSingle w m).dropStaleKeys = .ok (afterSingle w m)) :
    (afterSingle w m).fetch =
      .ok (atEnd [⟨.scalar w true, m, m.right w.length⟩] (m.right w.length) 0) := by
  rw [(atToken_end rfl).fetch hd, unwind_of_indent (show (-1 : Int) ≤ 0 by decide), fetchHere_end rfl]
  rfl

/-- The scalar is delivered, and then the end. -/
theorem delivers_single (hw : IsSingle w) : ∃ ts s, (ofText w).Delivers ts s ∧
    ts.map Token.kind = [.scalar w true, .streamEnd] ∧ s.finished = true ∧ s.queue = [] := by
  obtain ⟨fuel, hfuel⟩ : ∃ fuel, (ofText w).cursor.rest.length + 2 = fuel + 1 + 1 + 1 :=
    ⟨w.length - 1, by have := List.length_pos_iff.2 hw.ne_nil; simp [ofText, Cursor.ofText]; omega⟩
  let m : Mark := ⟨0, 0, 0⟩
  have hfetch : (ofText w).fetch = .ok (afterSingle w m) := fetch_single hw
  rcases dropStaleKeys_afterSingle w m with hd | hd
  · -- It waits as a key until the end is read.
    have hwaits : (afterSingle w m).waits = true := by simp [waits, afterSingle, atMargin]
    have hfill : (ofText w).fill ((ofText w).cursor.rest.length + 2) =
        .ok (atEnd [⟨.scalar w true, m, m.right w.length⟩] (m.right w.length) 0) := by
      rw [hfuel, fill_of_fetch rfl rfl hfetch, fill_of_waits rfl (by simp [afterSingle]) hd hwaits
        (fetch_afterSingle hd), fill_of_ready rfl (by simp [atEnd])]
    exact ⟨_, _, delivers_of_fill hfill rfl (by simp [atEnd]), rfl, rfl, rfl⟩
  · have hfill : (ofText w).fill ((ofText w).cursor.rest.length + 2) =
        .ok { afterSingle w m with keys := [] } := by
      rw [hfuel, fill_of_fetch rfl rfl hfetch, fill, hd]
      rfl
    have hend := fetch_end (m.right w.length) 1
    exact ⟨_, _, (delivers_of_fill hfill rfl (by simp [afterSingle])).trans
      (delivers_of_fetch rfl rfl hend rfl (by simp [atEnd])), rfl, rfl, rfl⟩

end Scan

/-! ## The document -/

theorem tokens_single (hw : IsSingle w) :
    ∃ ts, tokens w = (ts, none) ∧ ts.map Token.kind = [.scalar w true, .streamEnd] := by
  obtain ⟨ts, s, hdelivers, hkinds, hfinished, hqueue⟩ := Scan.delivers_single hw
  have hlength : ts.length = 2 := by simpa using congrArg List.length hkinds
  exact ⟨ts, Scan.tokens_of_delivers (hw.of_mem (by decide +kernel)) hdelivers hfinished hqueue
    (by omega), hkinds⟩

theorem Build.document_single {t u : Token} (ht : t.kind = .scalar w true) (hu : u.kind = .streamEnd)
    (htext : resolve metadataTags w = strTag) (fuel : Nat) (handles : List (String × String)) :
    (document (fuel + 1)).run ⟨[t, u], none, #[], [], handles⟩ =
      .ok (some 0, ⟨[u], none, #[⟨strTag, .scalar w, t.start⟩], [], handles⟩) := by
  rw [document, run_bind_ok run_peek]
  simp only [ht]
  rw [run_bind_ok (node_scalar ht htext fuel true false), run_bind_ok (skipDocumentEnds_end hu fuel),
    run_bind_ok run_peek, hu]
  rfl

theorem compose_single (hw : IsSingle w) (htext : resolve metadataTags w = strTag) :
    ∃ start, compose w = .ok (#[⟨strTag, .scalar w, start⟩], some 0) := by
  obtain ⟨ts, hts, hkinds⟩ := tokens_single hw
  obtain ⟨t, us, rfl, ht, hus⟩ := List.map_eq_cons_iff.1 hkinds
  obtain ⟨u, us, rfl, hu, hus⟩ := List.map_eq_cons_iff.1 hus
  obtain rfl := List.map_eq_nil_iff.1 hus
  refine ⟨t.start, ?_⟩
  rw [compose, hts]
  simp only [bind, Except.bind]
  rw [Build.document_single ht hu htext]
  rfl

/-- A document of one plain scalar that has the tag of texts is that text. -/
theorem read_single (hw : IsSingle w) (htext : resolve metadataTags w = strTag) :
    Document.read w = .ok ⟨#[], .scalar (.str (String.ofList w)) none⟩ := by
  obtain ⟨start, hcompose⟩ := compose_single hw htext
  let g : Graph := #[⟨strTag, .scalar w, start⟩]
  have hnone : Make.TextsMade ⟨g, Array.replicate g.size none, #[], []⟩ := by
    intro i v t _ hv
    simp [Array.getElem?_replicate] at hv
    split at hv <;> cases hv
  obtain ⟨made, hvalue, -⟩ := Make.value_text ⟨_, rfl, rfl, rfl⟩ hnone (i := 0)
  rw [Document.read, hcompose]
  change Document.ofGraph g (some 0) = _
  rw [Document.ofGraph]
  dsimp only
  rw [run_bind_ok hvalue]
  rfl

end Keyring.Yaml
