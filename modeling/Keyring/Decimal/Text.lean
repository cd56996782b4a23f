import Keyring.Decimal.Shortest
import Keyring.Text.Blank
import Keyring.Text.Digit
import Keyring.Text.Quoted
/-!
# Numbers as text

A number is written with the fewest digits that read back. `Layout` says how they are laid out:
which magnitudes are positional, how a whole number ends, and how wide an exponent is. Reading
takes a decimal in digits of any script, with one sign, and white space around it; the names of
infinity and of the undefined number are read in either letter case.
-/

namespace Keyring.Decimal

open Keyring.Text

/-- The conventions of a number format. -/
structure Layout where
  /-- Positional notation starts at this power of ten … -/
  lowest : Int
  /-- … and ends below this one. -/
  highest : Int
  /-- What a positional whole number ends in. -/
  whole : String
  /-- The least number of digits of an exponent. -/
  exponentDigits : Nat
  infinity : String
  notANumber : String

/-- Values in messages are positional from 0.0001 up to below 10^16 and keep a decimal place. -/
def valueLayout : Layout := ⟨-4, 16, ".0", 2, "inf", "nan"⟩

/-- Values in JSON differ in the names of the numbers that are not finite. -/
def jsonLayout : Layout := { valueLayout with infinity := "Infinity", notANumber := "NaN" }

/-- The digits of a natural number. -/
def digitsOf (n : Nat) : List Char :=
  Nat.toDigits 10 n

/-- Zeros in front up to the given width. -/
def padded (width : Nat) (n : Nat) : List Char :=
  let ds := digitsOf n
  List.replicate (width - ds.length) '0' ++ ds

/-- A sign and at least `width` digits. -/
def exponentText (width : Nat) (e : Int) : List Char :=
  (if e < 0 then '-' else '+') :: padded width e.natAbs

/-- Lays a positive decimal out. -/
def Layout.scientific (l : Layout) (x : Scientific) : List Char :=
  let ds := digitsOf x.digits
  let top : Int := x.exponent + ds.length - 1
  if l.lowest ≤ top && top < l.highest then
    if top < 0 then '0' :: '.' :: (List.replicate (-top - 1).toNat '0' ++ ds)
    else
      let places := top.toNat + 1
      let whole := ds.take places ++ List.replicate (places - ds.length) '0'
      let rest := ds.drop places
      whole ++ (if rest.isEmpty then l.whole.toList else '.' :: rest)
  else
    let rest := ds.drop 1
    ds.take 1 ++ (if rest.isEmpty then [] else '.' :: rest) ++
      'e' :: exponentText l.exponentDigits top

/-- Writes a number from its parts. -/
def Layout.parts (l : Layout) : Parts → List Char
  | .notANumber => l.notANumber.toList
  | .infinite negative => (if negative then ['-'] else []) ++ l.infinity.toList
  | .finite negative x =>
    (if negative then ['-'] else []) ++
      if x.m = 0 then '0' :: l.whole.toList else l.scientific (shortest x)

/-- Writes a double. -/
def Layout.write (l : Layout) (x : Float) : String :=
  String.ofList (l.parts (Parts.ofFloat x))

/-! ## Reading -/

/-- The value of a digit in bases up to 36: a decimal digit of any script or a letter. -/
def baseDigit? (c : Char) : Option Nat :=
  match digitValue? c with
  | some d => some d
  | none =>
    if 'a' ≤ c && c ≤ 'z' then some (c.toNat - 'a'.toNat + 10)
    else if 'A' ≤ c && c ≤ 'Z' then some (c.toNat - 'A'.toNat + 10)
    else none

/-- Adds the digits of `cs` to `n` in the given base; `none` if one of them is no digit. -/
def readDigits (base : Nat) : (n : Nat) → List Char → Option Nat
  | n, [] => some n
  | n, c :: cs =>
    match baseDigit? c with
    | some d => if d < base then readDigits base (n * base + d) cs else none
    | none => none

/-- A sign in front, and what follows it. -/
def readSign : List Char → Bool × List Char
  | '-' :: cs => (true, cs)
  | '+' :: cs => (false, cs)
  | cs => (false, cs)

/-- The letter that announces a base. -/
def baseLetter? : (base : Nat) → Option Char
  | 2 => some 'b'
  | 8 => some 'o'
  | 16 => some 'x'
  | _ => none

/-- Drops `0b`, `0o` or `0x` in front, whichever belongs to the base. -/
def dropBaseMark (base : Nat) (cs : List Char) : List Char :=
  match cs, baseLetter? base with
  | '0' :: c :: rest, some letter => if c = letter || c = letter.toUpper then rest else cs
  | _, _ => cs

/-- The greatest number of digits that are read or written in base ten. -/
def digitLimit : Nat := 4300

/-- Why a text is not read as a whole number. -/
inductive WholeFlaw where
  | notANumber
  /-- More digits than the limit allows. -/
  | tooLong (digits : Nat)
  deriving DecidableEq, Repr

/-- The words for a text that is not read as a whole number. Of a long text only the start of its
quoted form is shown. -/
def WholeFlaw.message (base : Nat) (cs : List Char) : WholeFlaw → String
  | .notANumber =>
    "invalid literal for int() with base " ++ toString base ++ ": " ++
      String.ofList ((quotedList cs).take 200)
  | .tooLong digits =>
    "Exceeds the limit (" ++ toString digitLimit ++
      " digits) for integer string conversion: value has " ++ toString digits ++
      " digits; use sys.set_int_max_str_digits() to increase the limit"

/-- The words for a whole number that has too many digits to be written. -/
def tooLongToWrite : String :=
  "Exceeds the limit (" ++ toString digitLimit ++
    " digits) for integer string conversion; use sys.set_int_max_str_digits() to increase the limit"

/-- Reads a whole number: white space, a sign, a mark of the base and digits, the last required. -/
def readWhole (base : Nat) (cs : List Char) : Except WholeFlaw Int :=
  let (negative, body) := readSign (trim isWhite cs)
  let digits := dropBaseMark base body
  if digits.isEmpty then .error .notANumber
  else if base = 10 && digitLimit < (digits.takeWhile fun c => (digitValue? c).isSome).length then
    .error (.tooLong (digits.takeWhile fun c => (digitValue? c).isSome).length)
  else
    match readDigits base 0 digits with
    | some n => .ok (if negative then -n else n)
    | none => .error .notANumber

/-- The bits of the double nearest to `digits * 10 ^ exponent`. Magnitudes far outside the range of
doubles are settled by their size alone. -/
def Scientific.bits (x : Scientific) : UInt64 :=
  let top : Int := x.exponent + (digitsOf x.digits).length
  if x.digits = 0 || top < -340 then 0
  else if 320 < top then nearestBits (Nat.pow 2 1024) 1
  else nearestBits (x.digits * Nat.pow 10 x.exponent.toNat) (Nat.pow 10 (-x.exponent).toNat)

/-- A double with the given sign bit and magnitude. -/
def signed (negative : Bool) (bits : UInt64) : Float :=
  Float.ofBits (if negative then bits ||| 0x8000000000000000 else bits)

/-- The bits of infinity. -/
def infinityBits : UInt64 := 0x7FF0000000000000

/-- The bits of the undefined number. -/
def undefinedBits : UInt64 := 0x7FF8000000000000

/-- The longest run of decimal digits in front, and the rest. -/
def spanDigits (cs : List Char) : List Char × List Char :=
  cs.span fun c => (digitValue? c).isSome

/-- The exponent of a decimal: `e`, a sign that may be missing, digits. -/
def readExponent : List Char → Option Int
  | [] => some 0
  | c :: cs =>
    if c = 'e' || c = 'E' then
      let (negative, ds) := readSign cs
      if ds.isEmpty then none
      else (readDigits 10 0 ds).map fun (n : Nat) => if negative then -(n : Int) else n
    else none

/-- Reads an unsigned decimal: digits, or digits around a point, and an exponent. -/
def readMagnitude (cs : List Char) : Option UInt64 :=
  match String.ofList (cs.map Char.toLower) with
  | "inf" | "infinity" => some infinityBits
  | "nan" => some undefinedBits
  | _ =>
    let (whole, rest) := spanDigits cs
    let (places, tail) :=
      match rest with
      | '.' :: rest => spanDigits rest
      | rest => ([], rest)
    if whole.isEmpty && places.isEmpty then none
    else do
      let digits ← readDigits 10 0 (whole ++ places)
      let e ← readExponent tail
      pure (Scientific.bits ⟨digits, e - places.length⟩)

/-- Reads a double. -/
def readFloat (cs : List Char) : Option Float :=
  let (negative, body) := readSign (trim isWhite cs)
  (readMagnitude body).map (signed negative)

end Keyring.Decimal
