import Keyring.Base64
import Keyring.Datum
import Keyring.Text.Lower
import Keyring.Text.Split
import Keyring.Yaml.Fault
import Keyring.Yaml.Tag
/-!
# Scalars

The value that the text of a scalar stands for, tag by tag. A text that has the tag only because a
document says so need not have a value; what is wrong with it is then a fault of the value and not
of the YAML text.
-/

namespace Keyring.Yaml.Scalar

open Text Decimal

/-- Drops the bars that may stand between the digits of a number. -/
def withoutBars (cs : List Char) : List Char :=
  cs.filter (· != '_')

/-- What is wrong with a number that has no characters at all. -/
def emptyNumber : Fault := .value .index "string index out of range"

/-- A whole number in the given base. -/
def wholeIn (base : Nat) (cs : List Char) : Except Fault Int :=
  match readWhole base cs with
  | .ok n => .ok n
  | .error flaw => .error (.value .value (flaw.message base cs))

/-- A number in base sixty from its parts. -/
def sexagesimal (parts : List Int) : Int :=
  parts.foldl (fun n d => n * 60 + d) 0

/-- A whole number in binary, octal, decimal, hexadecimal or base sixty. -/
def whole (text : List Char) : Except Fault Int := do
  let (negative, digits) := readSign (withoutBars text)
  if (withoutBars text).isEmpty || digits.isEmpty then throw emptyNumber
  let n ←
    match digits with
    | ['0'] => pure 0
    | '0' :: 'b' :: rest => wholeIn 2 rest
    | '0' :: 'x' :: rest => wholeIn 16 rest
    | '0' :: _ => wholeIn 8 digits
    | _ =>
      if digits.contains ':' then do
        pure (sexagesimal (← (split ':' digits).mapM (wholeIn 10)))
      else wholeIn 10 digits
  pure (if negative then -n else n)

/-- A decimal. -/
def decimal (cs : List Char) : Except Fault Float :=
  match readFloat cs with
  | some x => .ok x
  | none => .error (.value .value ("could not convert string to float: " ++
      String.ofList (quotedList cs)))

/-- The double nearest to a natural number that has one. -/
def weight (n : Nat) : Except Fault Float :=
  let bits := nearestBits n 1
  if bits = infinityBits then .error (.value .overflow "int too large to convert to float")
  else .ok (Float.ofBits bits)

/-- Adds the parts of a number in base sixty, the last one first, to `sum`; each weighs sixty times
as much as the one before. -/
def sexagesimalSum (sum : Float) (unit : Nat) : List Float → Except Fault Float
  | [] => .ok sum
  | d :: ds => do
    let w ← weight unit
    sexagesimalSum (sum + d * w) (unit * 60) ds

/-- The undefined number as it is written `.nan`. -/
def undefinedNumber : Float := Float.ofBits undefinedBits

/-- A number with a point, in base ten or sixty, or one that is not finite. -/
def float (text : List Char) : Except Fault Float := do
  let cs := (lower (String.ofList (withoutBars text))).toList
  if cs.isEmpty then throw emptyNumber
  let (negative, digits) := readSign cs
  if digits = ".nan".toList then pure undefinedNumber
  else
    let x ←
      if digits = ".inf".toList then pure (Float.ofBits infinityBits)
      else if digits.contains ':' then do
        sexagesimalSum 0 1 (← (split ':' digits).mapM decimal).reverse
      else decimal digits
    pure (if negative then -x else x)

/-- A truth value. -/
def bool (text : List Char) : Except Fault Bool :=
  let word := lower (String.ofList text)
  if word = "yes" || word = "true" || word = "on" then .ok true
  else if word = "no" || word = "false" || word = "off" then .ok false
  else .error (.value .key (quoted word))

/-! ## Bytes -/

/-- The words for text that is not seven-bit: the first run of other characters, which starts after
`before` characters. -/
def asciiMessage (before : Nat) (run : List Char) : String :=
  let subject :=
    match run with
    | [c] => "character '" ++ String.ofList (numericEscape c.toNat) ++ "' in position " ++
        toString before
    | _ => "characters in position " ++ toString before ++ "-" ++
        toString (before + run.length - 1)
  "'ascii' codec can't encode " ++ subject ++ ": ordinal not in range(128)"

/-- The words for data that are not base64. -/
def base64Message : Base64.Flaw → String
  | .single characters =>
    "Invalid base64-encoded string: number of data characters (" ++ toString characters ++
      ") cannot be 1 more than a multiple of 4"
  | .padding => "Incorrect padding"

/-- A complaint about the bytes of a node, with the failure that lies behind it. -/
def bytesFault (words : String) (kind : FailureClass) (reason : String) (mark : Mark) : Fault :=
  .marked {
    stage := .constructor
    problem := words ++ reason
    mark
    origin? := some (kind, reason) }

/-- Bytes, written in base64. -/
def binary (mark : Mark) (text : List Char) : Except Fault (List UInt8) :=
  let isPlain : Char → Bool := fun c => c.toNat < 0x80
  let (before, rest) := text.span isPlain
  if rest.isEmpty then
    match Base64.decode text with
    | .ok bytes => .ok bytes
    | .error flaw =>
      .error (bytesFault "failed to decode base64 data: " .base64 (base64Message flaw) mark)
  else
    let reason := asciiMessage before.length (rest.takeWhile (!isPlain ·))
    .error (bytesFault "failed to convert base64 data into ascii: " .encoding reason mark)

/-! ## Dates and times -/

/-- A number of `least` to `most` digits in front of a text, and what follows it. -/
def digitsBetween (least most : Nat) (cs : List Char) : Option (Nat × List Char) :=
  let ds := (cs.take most).takeWhile fun c => '0' ≤ c && c ≤ '9'
  if ds.length < least then none
  else (readDigits 10 0 ds).map fun n => (n, cs.drop ds.length)

/-- What follows the sign `c`, if it is in front. -/
def afterSign (c : Char) : List Char → Option (List Char)
  | d :: rest => if d = c then some rest else none
  | [] => none

/-- What separates a date from a time. -/
def afterDate (cs : List Char) : Option (List Char) :=
  match cs with
  | [] => none
  | c :: rest =>
    if c = 'T' || c = 't' then some rest
    else if c = ' ' || c = '\t' then some (rest.dropWhile fun x => x = ' ' || x = '\t')
    else none

/-- A fraction of a second in microseconds, further digits dropped. -/
def fraction (cs : List Char) : Nat × List Char :=
  match cs with
  | '.' :: rest =>
    let (ds, rest) := rest.span fun c => '0' ≤ c && c ≤ '9'
    let six := ds.take 6
    ((readDigits 10 0 (six ++ List.replicate (6 - six.length) '0')).getD 0, rest)
  | _ => (0, cs)

/-- A distance from universal time in seconds, if the text has one and nothing else. -/
def zone (cs : List Char) : Option (Option Int) :=
  if cs.isEmpty then some none
  else
    match cs.dropWhile fun c => c = ' ' || c = '\t' with
    | ['Z'] => some (some 0)
    | s :: rest =>
      if s = '+' || s = '-' then do
        let (hours, rest) ← digitsBetween 1 2 rest
        let (minutes, rest) ←
          match rest with
          | ':' :: rest => digitsBetween 2 2 rest
          | _ => some (0, rest)
        if rest.isEmpty then
          let seconds : Int := hours * 3600 + minutes * 60
          some (some (if s = '-' then -seconds else seconds))
        else none
      else none
    | [] => none

/-- A date, or a date and a time, as it is written. -/
def moment (cs : List Char) : Option (Date ⊕ DateTime) := do
  let (year, rest) ← digitsBetween 4 4 cs
  let (month, rest) ← digitsBetween 1 2 (← afterSign '-' rest)
  let (day, rest) ← digitsBetween 1 2 (← afterSign '-' rest)
  let date : Date := ⟨year, month, day⟩
  if rest.isEmpty then pure (.inl date)
  else
    let (hour, rest) ← digitsBetween 1 2 (← afterDate rest)
    let (minute, rest) ← digitsBetween 2 2 (← afterSign ':' rest)
    let (second, rest) ← digitsBetween 2 2 (← afterSign ':' rest)
    let (microsecond, rest) := fraction rest
    let offset? ← zone rest
    pure (.inr ⟨date, hour, minute, second, microsecond, offset?⟩)

/-- A time whose distance from universal time and fields are in range. -/
def checkTime (t : DateTime) : Except CalendarFlaw DateTime :=
  match t.offset? with
  | some seconds => if 86400 ≤ seconds.natAbs then .error (.offset seconds) else t.check
  | none => t.check

/-- A text less one line feed at its end. -/
def withoutFinalBreak (cs : List Char) : List Char :=
  if cs.getLast? = some '\n' then cs.dropLast else cs

/-- A date or a time. -/
def timestamp (text : List Char) : Except Fault Datum :=
  let inRange {α : Type} (make : α → Datum) : Except CalendarFlaw α → Except Fault Datum
    | .ok x => .ok (make x)
    | .error flaw => .error (.value .value flaw.message)
  match moment (withoutFinalBreak text) with
  | none => .error (.value .missingMember "'NoneType' object has no attribute 'groupdict'")
  | some (.inl d) => inRange Datum.date d.check
  | some (.inr t) => inRange Datum.dateTime (checkTime t)

end Keyring.Yaml.Scalar
