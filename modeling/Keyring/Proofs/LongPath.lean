import Keyring.Proofs.FileTree
import Keyring.Proofs.Path
/-!
# Paths that get too long

The system takes no path of more than 4095 bytes. A path that goes into a directory and out of it again
comes near this limit, and then the length of a name decides whether an entry of the directory can be
reached (`locate_longWay_child`).
-/

namespace Keyring

/-- `n` times into the directory `keys` and out of it again, and then into it. -/
def detours : Nat → List String
  | 0 => ["keys"]
  | n + 1 => "keys" :: ".." :: detours n

theorem forall_mem_detours {P : String → Prop} (hkeys : P "keys") (hout : P "..") (n : Nat) :
    ∀ s ∈ detours n, P s := by
  induction n with
  | zero => exact List.forall_mem_singleton.2 hkeys
  | succ n ih =>
    rw [detours, List.forall_mem_cons, List.forall_mem_cons]
    exact ⟨hkeys, hout, ih⟩

theorem detours_ne_nil (n : Nat) : detours n ≠ [] := by
  cases n <;> simp [detours]

/-- Each detour takes eight bytes. -/
theorem utf8ByteSize_detours (n : Nat) :
    ("/".intercalate (detours n)).utf8ByteSize = 8 * n + 4 := by
  have hdetour : "keys".utf8ByteSize + "/".utf8ByteSize + ("..".utf8ByteSize + "/".utf8ByteSize) = 8 := by
    decide
  induction n with
  | zero => rfl
  | succ n ih =>
    obtain ⟨first, rest, hrest⟩ := List.exists_cons_of_ne_nil (detours_ne_nil n)
    rw [detours, String.intercalate_cons_cons, hrest, String.intercalate_cons_cons, ← hrest]
    simp only [String.utf8ByteSize_append, ih]
    omega

/-- Detours lead nowhere. -/
theorem stretch_detours {t : FileTree} (hkeys : t.at? ["keys"] = some .directory) (n : Nat) :
    t.stretch [] (detours n) = .ended (.found ["keys"] .directory) := by
  have hin : t.turn [] "keys" = .goes ["keys"] := by
    rw [FileTree.turn, if_neg (by simp [FileTree.at?]), if_neg (by decide), if_neg (by decide),
      if_neg (by decide), List.nil_append, hkeys]
  have hout : t.turn ["keys"] ".." = .goes [] := by
    rw [FileTree.turn, if_neg (by simp [hkeys]), if_neg (by decide), if_pos rfl]
    rfl
  induction n with
  | zero => simp only [detours, FileTree.stretch_cons, hin, FileTree.stretch, hkeys]
  | succ n ih => simp only [detours, FileTree.stretch_cons, hin, hout, ih]

/-- The directory `keys`, with so many detours that ten bytes are left for the name of a file. -/
def longWay : Path where
  root := .relative
  parts := detours 510
  isName_of_mem := forall_mem_detours (by decide) (by decide) _

theorem hasNul_longWay : hasNul (toString longWay) = false := by
  rw [hasNul_toString, List.any_eq_false]
  exact forall_mem_detours (by decide) (by decide) _

theorem utf8ByteSize_longWay : (toString longWay).utf8ByteSize = 4084 := by
  have hparts : longWay.parts = detours 510 := rfl
  have hne : ¬ (longWay.root = .relative ∧ longWay.parts = []) := fun h => detours_ne_nil 510 h.2
  change longWay.toString.utf8ByteSize = _
  rw [Path.toString, if_neg hne, String.utf8ByteSize_append, hparts, utf8ByteSize_detours]
  rfl

theorem utf8ByteSize_longWay_child {name : String} (hname : IsName name) :
    (toString (longWay.child name)).utf8ByteSize = 4085 + name.utf8ByteSize := by
  rw [longWay.utf8ByteSize_child hname (detours_ne_nil 510), utf8ByteSize_longWay]
  omega

theorem locate_longWay {h : Host} (hstart : h.workingDirectory = [])
    (hkeys : h.files.at? ["keys"] = some .directory) :
    h.locate longWay = .found ["keys"] .directory := by
  rw [Host.locate, Host.reach, utf8ByteSize_longWay, if_neg (by decide), hstart]
  exact FileTree.walk_of_ended (stretch_detours hkeys 510) _ _

/-- No file with a longer name is reached on the long way. -/
theorem locate_longWay_child {name : String} (hname : IsName name) (hlong : 10 < name.utf8ByteSize)
    (h : Host) : h.locate (longWay.child name) = .refused .nameTooLong := by
  rw [Host.locate, Host.reach, if_pos]
  rw [utf8ByteSize_longWay_child hname, Host.longestPath]
  omega

end Keyring
