/-!
# Line ends

Text files are read with every line end as one line feed: `unifyLineEnds` maps a carriage return
with the line feed after it, or alone, to a line feed. `trimLineEnds` drops all carriage returns
and line feeds at the end of a text.
-/

namespace Keyring.Text

/-- Makes every line end a line feed. -/
def unifyLineEnds : List Char → List Char
  | [] => []
  | '\r' :: '\n' :: rest => '\n' :: unifyLineEnds rest
  | '\r' :: rest => '\n' :: unifyLineEnds rest
  | c :: rest => c :: unifyLineEnds rest

/-- Whether `c` ends a line. -/
def isLineEnd (c : Char) : Bool :=
  c == '\r' || c == '\n'

/-- Drops the line ends at the end of a text. -/
def trimLineEnds (cs : List Char) : List Char :=
  (cs.reverse.dropWhile isLineEnd).reverse

theorem not_mem_unifyLineEnds (cs : List Char) : '\r' ∉ unifyLineEnds cs := by
  fun_induction unifyLineEnds cs with
  | case1 => simp
  | case2 rest ih => simpa using ih
  | case3 rest _ ih => simpa using ih
  | case4 c rest _ hc ih =>
    rw [List.mem_cons, not_or]
    exact ⟨fun e => hc e.symm, ih⟩

theorem mem_of_mem_trimLineEnds {c : Char} {cs : List Char} (h : c ∈ trimLineEnds cs) : c ∈ cs := by
  rw [trimLineEnds, List.mem_reverse] at h
  exact List.mem_reverse.1 ((List.dropWhile_sublist _).subset h)

/-- A trimmed text does not end in a line end. -/
theorem isLineEnd_of_getLast? {c : Char} {cs : List Char}
    (h : (trimLineEnds cs).getLast? = some c) : isLineEnd c = false := by
  rw [trimLineEnds, List.getLast?_reverse] at h
  have := List.head?_dropWhile_not isLineEnd cs.reverse
  rw [h] at this
  simpa using this

end Keyring.Text
