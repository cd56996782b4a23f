import Keyring.Proofs.Yaml.Word
import Keyring.Yaml.Token.Scan
/-!
# The queue of a scan

A scan delivers the tokens in its queue once no key waits (`delivers_queue`), and reads more only
then. `Delivers s ts s'` says so of any number of tokens, and composes (`Delivers.trans`); what a
scan reads is told by lemmas about `fetch` alone.
-/

namespace Keyring.Yaml.Scan

variable {s s' : Scan}

/-! ## Tokens that are ready -/

/-- The scan `s` delivers the tokens `ts` and goes on as `s'`. -/
def Delivers (s : Scan) (ts : List Token) (s' : Scan) : Prop :=
  ∀ fuel, s.deliver (ts.length + fuel) = (ts ++ (s'.deliver fuel).1, (s'.deliver fuel).2)

theorem Delivers.refl (s : Scan) : s.Delivers [] s := by
  intro fuel
  rw [List.length_nil, Nat.zero_add, List.nil_append]

theorem Delivers.trans {s'' : Scan} {ts ts' : List Token} (h : s.Delivers ts s')
    (h' : s'.Delivers ts' s'') : s.Delivers (ts ++ ts') s'' := by
  intro fuel
  rw [List.length_append, Nat.add_assoc, h, h', List.append_assoc]

theorem dropStaleKeys_of_keys (hk : s.keys = []) : s.dropStaleKeys = .ok s := by
  obtain ⟨cursor, queue, taken, finished, flowLevel, indent, indents, keyAllowed, keys⟩ := s
  obtain rfl : keys = [] := hk
  rfl

/-- Nothing more is read while tokens are ready. -/
theorem fill_of_ready (hk : s.keys = []) (hq : s.queue ≠ []) (fuel : Nat) :
    s.fill (fuel + 1) = .ok s := by
  have hempty : s.queue.isEmpty = false := by simpa using hq
  have hwaits : s.waits = false := by simp [waits, hempty, hk]
  rw [fill]
  split
  · rfl
  · simp [hempty, dropStaleKeys_of_keys hk, hwaits, bind, Except.bind, pure, Except.pure]

/-- The tokens of the queue are delivered in their order. -/
theorem delivers_queue (hk : s.keys = []) :
    s.Delivers s.queue { s with queue := [], taken := s.taken + s.queue.length } := by
  generalize hq : s.queue = queue
  induction queue generalizing s with
  | nil =>
    have hs : { s with queue := [], taken := s.taken + ([] : List Token).length } = s := by
      obtain ⟨cursor, queue, taken, finished, flowLevel, indent, indents, keyAllowed, keys⟩ := s
      obtain rfl : queue = [] := hq
      rfl
    rw [hs]
    exact .refl s
  | cons t queue ih =>
    have hrest := @ih { s with queue, taken := s.taken + 1 } hk rfl
    intro fuel
    have hfill := fill_of_ready hk (s := s) (by rw [hq]; simp) (s.cursor.rest.length + 1)
    have hlength : (t :: queue).length + fuel = queue.length + fuel + 1 := by
      simp only [List.length_cons]
      omega
    rw [hlength, deliver, hfill]
    simp only [hq, hrest fuel]
    simp only [List.length_cons, List.cons_append, Nat.add_comm 1, Nat.add_assoc]

/-- What has been read is delivered once it is ready. -/
theorem delivers_of_fill (hfill : s.fill (s.cursor.rest.length + 2) = .ok s') (hk : s'.keys = [])
    (hq : s'.queue ≠ []) :
    s.Delivers s'.queue { s' with queue := [], taken := s'.taken + s'.queue.length } := by
  intro fuel
  rw [← delivers_queue hk fuel]
  obtain ⟨t, queue, hqueue⟩ := List.exists_cons_of_ne_nil hq
  have hlength : s'.queue.length + fuel = queue.length + fuel + 1 := by
    rw [hqueue, List.length_cons]
    omega
  rw [hlength, deliver, deliver, hfill, fill_of_ready hk hq]

/-! ## Reading -/

theorem fill_of_fetch (hf : s.finished = false) (hq : s.queue = []) (hs : s.fetch = .ok s')
    (fuel : Nat) : s.fill (fuel + 1) = s'.fill fuel := by
  rw [fill, hf]
  simp [hq, hs, bind, Except.bind]

/-- A key that may have started where the queue does keeps the queue waiting. -/
theorem fill_of_waits (hf : s.finished = false) (hq : s.queue ≠ []) (hd : s.dropStaleKeys = .ok s)
    (hw : s.waits = true) (hs : s.fetch = .ok s') (fuel : Nat) :
    s.fill (fuel + 1) = s'.fill fuel := by
  have hempty : s.queue.isEmpty = false := by simpa using hq
  rw [fill, hf]
  simp [hempty, hd, hw, hs, bind, Except.bind]

/-- Tokens that are read in one go while no key waits. -/
theorem delivers_of_fetch (hf : s.finished = false) (hq : s.queue = []) (hs : s.fetch = .ok s')
    (hk : s'.keys = []) (hq' : s'.queue ≠ []) :
    s.Delivers s'.queue { s' with queue := [], taken := s'.taken + s'.queue.length } := by
  refine delivers_of_fill ?_ hk hq'
  rw [fill_of_fetch hf hq hs]
  exact fill_of_ready hk hq' _

/-- A scan that is finished and has no tokens delivers none. -/
theorem deliver_of_finished (hf : s.finished = true) (hq : s.queue = []) (fuel : Nat) :
    s.deliver fuel = ([], none) := by
  cases fuel with
  | zero => rfl
  | succ fuel => simp [deliver, fill, hf, hq]

/-- The tokens of a text are those that its scan delivers up to the end, if the fuel lasts. -/
theorem tokens_of_delivers {w : List Char} {ts : List Token}
    (hw : ∀ c ∈ w, isAcceptable c = true) (h : (ofText w).Delivers ts s)
    (hf : s.finished = true) (hq : s.queue = []) (hlength : ts.length ≤ 4 * w.length + 8) :
    tokens w = (ts, none) := by
  have hacceptable : w.findIdx? (!isAcceptable ·) = none := by
    rw [List.findIdx?_eq_none_iff]
    simpa using hw
  obtain ⟨fuel, hfuel⟩ := Nat.exists_eq_add_of_le hlength
  rw [tokens, hacceptable]
  simp only
  rw [hfuel, h, deliver_of_finished hf hq, List.append_nil]

/-! ## White space before a token -/

/-- No white space, comment or byte order mark is at the cursor. -/
structure AtToken (s : Scan) : Prop where
  space : s.cursor.peek ≠ ' '
  comment : s.cursor.peek ≠ '#'
  lineBreak : isBreak s.cursor.peek = false
  orderMark : s.cursor.peek.toNat ≠ 0xFEFF

/-- Reading a token starts with the white space before it. -/
theorem fetch_of_skip (hs : skipToToken (s.cursor.rest.length + 1) s.skipOrderMark = s')
    (hd : s'.dropStaleKeys = .ok s') : s.fetch = (s'.unwind s'.mark.column).fetchHere := by
  rw [fetch, hs, hd]
  rfl

theorem skipOrderMark_of_ne (h : s.cursor.peek.toNat ≠ 0xFEFF) : s.skipOrderMark = s := by
  rw [skipOrderMark, if_neg]
  simpa using fun _ => h

theorem skipWhile_of_ne {c : Cursor} {x : Char} (h : c.peek ≠ x) : c.skipWhile (· == x) = c := by
  obtain ⟨rest, m⟩ := c
  cases rest with
  | nil => rfl
  | cons y rest =>
    have hy : (y == x) = false := by simpa [Cursor.peek] using h
    simp [Cursor.skipWhile, Cursor.span, hy, Cursor.advance]

theorem AtToken.skipComment (h : AtToken s) : s.cursor.skipComment = s.cursor := by
  rw [Cursor.skipComment, if_neg (by simpa using h.comment)]

theorem AtToken.skipToToken (h : AtToken s) (fuel : Nat) : skipToToken (fuel + 1) s = s := by
  rw [Scan.skipToToken]
  simp only [skipWhile_of_ne h.space, h.skipComment, h.lineBreak, Bool.false_eq_true, if_false]

theorem AtToken.fetch (h : AtToken s) (hd : s.dropStaleKeys = .ok s) :
    s.fetch = (s.unwind s.mark.column).fetchHere := by
  refine fetch_of_skip ?_ hd
  rw [skipOrderMark_of_ne h.orderMark, h.skipToToken]

/-- A space before a token is skipped. -/
theorem fetch_space {rest : List Char} {m : Mark} (h : AtToken s')
    (hc : s.cursor = ⟨' ' :: rest, m⟩) (hs : { s with cursor := ⟨rest, m.right 1⟩ } = s')
    (hk : s.keys = []) :
    s.fetch = (s'.unwind s'.mark.column).fetchHere := by
  have hk' : s'.keys = [] := by rw [← hs]; exact hk
  refine fetch_of_skip ?_ (dropStaleKeys_of_keys hk')
  have hcursor : s'.cursor = ⟨rest, m.right 1⟩ := by rw [← hs]
  have hskip : s.cursor.skipWhile (· == ' ') = s'.cursor := by
    have hx : (rest.headD '\x00' == ' ') = false := by
      have hne := h.space
      rw [hcursor] at hne
      exact beq_eq_false_iff_ne.2 hne
    have hspan : (⟨[' '] ++ rest, m⟩ : Cursor).span (· == ' ') = ([' '], ⟨rest, m.right 1⟩) :=
      Cursor.span_append_of_neg (by simp [IsNarrow]; decide) (by simp) hx m
    rw [hc, hcursor]
    exact congrArg Prod.snd hspan
  have horder : s.cursor.peek.toNat ≠ 0xFEFF := by
    rw [hc]
    exact show ' '.toNat ≠ 0xFEFF by decide
  rw [skipOrderMark_of_ne horder, skipToToken, hskip, h.skipComment]
  simp only [h.lineBreak, Bool.false_eq_true, if_false]
  rw [← hs]

/-- A line feed before a token is skipped, and allows a key. -/
theorem fetch_break {rest : List Char} {m : Mark} (h : AtToken s')
    (hc : s.cursor = ⟨'\n' :: rest, m⟩)
    (hs : { s with cursor := ⟨rest, m.below⟩, keyAllowed := true } = s') (hflow : s.flowLevel = 0)
    (hk : s.keys = []) : s.fetch = (s'.unwind s'.mark.column).fetchHere := by
  have hk' : s'.keys = [] := by rw [← hs]; exact hk
  refine fetch_of_skip ?_ (dropStaleKeys_of_keys hk')
  have hskip : (s.cursor.skipWhile (· == ' ')).skipComment = ⟨'\n' :: rest, m⟩ := by
    rw [hc]
    rfl
  have hallowed : (s.keyAllowed || !s.inFlow) = true := by simp [inFlow, hflow]
  have hlength : s.cursor.rest.length = rest.length + 1 := by rw [hc]; rfl
  have horder : s.cursor.peek.toNat ≠ 0xFEFF := by
    rw [hc]
    exact show '\n'.toNat ≠ 0xFEFF by decide
  rw [skipOrderMark_of_ne horder, skipToToken, hskip, if_pos (by rfl), hallowed, hlength]
  have hline : (⟨'\n' :: rest, m⟩ : Cursor).lineBreak.2 = ⟨rest, m.below⟩ := rfl
  rw [hline, hs, h.skipToToken]

end Keyring.Yaml.Scan
