import Keyring.Datum
import Keyring.Entries
/-!
# JSON values

Whole numbers and numbers with a point or exponent are kept apart, and the members of an object
keep their order. `Json.Value.get?` looks a member up.
-/

namespace Keyring.Json

inductive Value where
  | null
  | bool (b : Bool)
  | int (n : Int)
  | float (x : Float)
  | str (s : String)
  | list (items : List Value)
  | object (members : List (String × Value))
  deriving Inhabited

namespace Value

/-- The members of an object. -/
def members? : Value → Option (List (String × Value))
  | object members => some members
  | _ => none

/-- The member of an object with the given name. -/
def get? (v : Value) (name : String) : Option Value :=
  v.members?.bind (·.lookup name)

@[simp] theorem get?_object (members : List (String × Value)) (name : String) :
    (object members).get? name = members.lookup name := rfl

mutual

/-- The same value as metadata. -/
def toDatum : Value → Datum
  | null => .null
  | bool b => .bool b
  | int n => .int n
  | float x => .float x
  | str s => .str s
  | list items => .list (toData items)
  | object members => .mapping (toEntries members)

def toData : List Value → List Datum
  | [] => []
  | v :: vs => v.toDatum :: toData vs

def toEntries : List (String × Value) → List (Datum × Datum)
  | [] => []
  | (k, v) :: rest => (.str k, v.toDatum) :: toEntries rest

end

end Value

end Keyring.Json
