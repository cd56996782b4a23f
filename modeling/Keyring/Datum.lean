import Keyring.Calendar
import Keyring.Text.Quoted
/-!
# Values of metadata

A metadata file or a keystore decodes to a `Datum`. A value has two texts: `spelled?` writes it so
that its kind shows (texts in quotes), `text?` writes a bare text, date or time as it is and
spells anything else. Neither exists for a whole number of more digits than the limit.

A container that is met again inside itself is not unfolded further; `again` stands in its place.
-/

namespace Keyring

open Text Decimal

/-- The kinds of container. -/
inductive Container where
  | list
  | tuple
  | mapping
  | set
  deriving DecidableEq, Repr

/-- A value of metadata. -/
inductive Datum where
  | null
  | bool (b : Bool)
  | int (n : Int)
  | float (x : Float)
  | str (s : String)
  | bytes (bs : List UInt8)
  | date (d : Date)
  | dateTime (t : DateTime)
  | list (items : List Datum)
  | tuple (items : List Datum)
  | mapping (entries : List (Datum × Datum))
  | set (items : List Datum)
  /-- A container inside itself. -/
  | again (shape : Container)
  deriving Inhabited

namespace Datum

/-- A whole number in digits, within the limit. -/
def wholeText? (n : Int) : Option String :=
  let digits := String.ofList (digitsOf n.natAbs)
  if digitLimit < digits.length then none
  else some (if n < 0 then "-" ++ digits else digits)

/-- What stands for a container inside itself. -/
def againText : Container → String
  | .list => "[...]"
  | .tuple => "(...)"
  | .mapping => "\x7b...\x7d"
  | .set => "set(...)"

/-- Between the brackets, separated by commas. -/
def enclosed (opening : String) (items : List String) (closing : String) : String :=
  opening ++ ", ".intercalate items ++ closing

mutual

/-- The text of a value that shows its kind. -/
def spelled? : Datum → Option String
  | null => some "None"
  | bool b => some (if b then "True" else "False")
  | int n => wholeText? n
  | float x => some (valueLayout.write x)
  | str s => some (quoted s)
  | bytes bs => some (quotedBytes bs)
  | date d => some d.spelled
  | dateTime t => some t.spelled
  | list items => do pure (enclosed "[" (← spelledAll? items) "]")
  | tuple items => do
    let texts ← spelledAll? items
    pure (enclosed "(" texts (if texts.length = 1 then ",)" else ")"))
  | mapping entries => do pure (enclosed "\x7b" (← spelledEntries? entries) "\x7d")
  | set [] => some "set()"
  | set (first :: rest) => do
    pure (enclosed "\x7b" ((← spelled? first) :: (← spelledAll? rest)) "\x7d")
  | again shape => some (againText shape)

/-- The texts of several values. -/
def spelledAll? : List Datum → Option (List String)
  | [] => some []
  | x :: xs => do pure ((← spelled? x) :: (← spelledAll? xs))

/-- The texts of the entries of a dictionary. -/
def spelledEntries? : List (Datum × Datum) → Option (List String)
  | [] => some []
  | (k, v) :: rest => do
    let key ← spelled? k
    let value ← spelled? v
    pure ((key ++ ": " ++ value) :: (← spelledEntries? rest))

end

/-- The text of a value. -/
def text? : Datum → Option String
  | str s => some s
  | date d => some d.isoText
  | dateTime t => some t.isoText
  | x => x.spelled?

/-- Whether a value counts as absent: null or the empty text. -/
def isMissing : Datum → Bool
  | null => true
  | str s => s = ""
  | _ => false

end Datum

end Keyring
