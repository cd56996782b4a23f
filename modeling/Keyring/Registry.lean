import Keyring.Entries
import Keyring.Handler.Keystore
import Keyring.Text.Lower
/-!
# The registry of handlers

For every metadata type, in small letters, the registry keeps the handlers that take it, the
preferred one first. A new handler goes behind those that it is not preferred to, at a place that is
found by halving. Two different handlers with one priority and name are not comparable: where the
search meets such a pair the registration fails, with the types before that one registered.
-/

namespace Keyring

/-- The handlers that take each type. -/
structure Registry where
  byType : List (String × List Handler)

namespace Handler

/-- The failure to compare two handlers. -/
def clash : Failure :=
  .ofText .type "'<' not supported between instances of 'ABCMeta' and 'ABCMeta'"

/-- Whether `a` comes before `b`. -/
def precedes (a b : Handler) : Except Failure Bool :=
  if a.priority ≠ b.priority then .ok (a.priority < b.priority)
  else if a.name ≠ b.name then .ok (a.name < b.name)
  else if a.number = b.number then .ok false
  else .error clash

end Handler

namespace Registry

def empty : Registry := ⟨[]⟩

/-- The handlers of a type in small letters. -/
def handlers (r : Registry) (type : String) : List Handler :=
  (r.byType.lookup type).getD []

/-- Gives a type other handlers. -/
def setHandlers (r : Registry) (type : String) (hs : List Handler) : Registry :=
  ⟨Entries.set type hs r.byType⟩

theorem handlers_setHandlers_self (r : Registry) (t : String) (hs : List Handler) :
    (r.setHandlers t hs).handlers t = hs := by
  rw [handlers, setHandlers, Entries.lookup_set_self]; rfl

theorem handlers_setHandlers_of_ne {s t : String} (h : s ≠ t) (r : Registry) (hs : List Handler) :
    (r.setHandlers t hs).handlers s = r.handlers s := by
  rw [handlers, setHandlers, Entries.lookup_set_of_ne h]; rfl

/-- The place of `h` behind all handlers that it does not come before, between `low` and `high`. -/
def placeBetween (hs : List Handler) (h : Handler) :
    (fuel : Nat) → (low high : Nat) → Except Failure Nat
  | 0, low, _ => .ok low
  | fuel + 1, low, high =>
    if low < high then
      let middle := (low + high) / 2
      match hs[middle]? with
      | none => .ok low
      | some other => do
        if ← h.precedes other then placeBetween hs h fuel low middle
        else placeBetween hs h fuel (middle + 1) high
    else .ok low

/-- Puts a handler in its place. -/
def place (hs : List Handler) (h : Handler) : Except Failure (List Handler) := do
  let k ← placeBetween hs h (hs.length + 1) 0 hs.length
  pure (hs.take k ++ h :: hs.drop k)

/-- A handler is put among the others, whose order stays. -/
theorem place_eq_ok {hs out : List Handler} {h : Handler} (e : place hs h = .ok out) :
    ∃ k, out = hs.take k ++ h :: hs.drop k := by
  simp only [place, bind, Except.bind] at e
  split at e
  · cases e
  · next k _ => exact ⟨k, (Except.ok.inj e).symm⟩

/-- Registers a handler for types, in their order, up to a failure. -/
def registerTypes (r : Registry) (h : Handler) : List String → Registry × Option Failure
  | [] => (r, none)
  | type :: types =>
    let t := Text.lower type
    match place (r.handlers t) h with
    | .error f => (r, some f)
    | .ok hs => registerTypes (r.setHandlers t hs) h types

/-- Registers a handler for its types. -/
def register (r : Registry) (h : Handler) : Registry × Option Failure :=
  r.registerTypes h h.types

/-- The types that have handlers, in the order of their characters. -/
def knownTypes (r : Registry) : List String :=
  ((r.byType.filter fun e => !e.2.isEmpty).map (·.1)).mergeSort fun a b => !(b < a)

/-- The failure to find a handler. -/
def unknownType (r : Registry) (type : Datum) : Failure :=
  match type.spelled? with
  | some s =>
    .ofText .unknownType ("Unknown metadata type " ++ s ++ " (expected one of: " ++
      ", ".intercalate r.knownTypes ++ ")")
  | none => Metadata.tooLongFailure

/-- The preferred handler of a type. -/
def choose (r : Registry) (type : Datum) : Except Failure Handler := do
  match r.handlers (Text.lower (← Metadata.textOf type)) with
  | h :: _ => pure h
  | [] => throw (r.unknownType type)

/-- The registry of the handlers of this library. -/
def builtin : Registry :=
  ((empty.register Handler.raw).1.register Handler.keystore).1

end Registry

end Keyring
