import Keyring.Datum
import Keyring.Failure.Basic
/-!
# Messages made of arguments

A failure that is raised with arguments shows the only one as text, none as nothing and several as
a tuple. Two classes differ: a missing key is spelled, and a failure of the file system with two to
five arguments shows its number, its reason and the files concerned.
-/

namespace Keyring.Failure

open Datum

/-- The text of the arguments of a failure of the file system. -/
def osText? : List Datum → Option String
  | number :: reason :: files => do
    let start := "[Errno " ++ (← number.text?) ++ "] " ++ (← reason.text?)
    match files with
    | [] => pure start
    | .null :: _ => pure start
    | file :: more =>
      let one := start ++ ": " ++ (← file.spelled?)
      match more with
      | [] | [_] | _ :: .null :: _ => pure one
      | _ :: target :: _ => pure (one ++ " -> " ++ (← target.spelled?))
  | _ => none

/-- The text of a failure raised with the given arguments. -/
def argumentsText? (kind : FailureClass) : List Datum → Option String
  | [] => some ""
  | [x] => if kind = .key then x.spelled? else x.text?
  | xs =>
    if kind.isOs && xs.length ≤ 5 then osText? xs
    else (Datum.tuple xs).spelled?

/-- The message of a failure raised with the given arguments. -/
def Message.ofArguments (kind : FailureClass) (arguments : List Datum) : Message :=
  if kind = .unprintable then .unprintable
  else
    match argumentsText? kind arguments with
    | some s => .text s
    | none => .unprintable

end Keyring.Failure
