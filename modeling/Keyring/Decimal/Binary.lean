/-!
# Binary floating point, decoded

A finite double is `m * 2 ^ q` with a sign. `Binary` is such a number without the sign, `parts`
takes the bits of a double apart, and `nearestBits` goes the other way: it rounds a quotient of
natural numbers to the nearest double, a tie to the even neighbour, and gives its bits.
-/

namespace Keyring.Decimal

/-- The number `m * 2 ^ q`. -/
structure Binary where
  m : Nat
  q : Int
  /-- The double below is only half as far away as the one above. -/
  atPowerOfTwo : Bool
  deriving DecidableEq, Repr

/-- The number of fractions that a double can have, `2 ^ 52`. -/
def fractionCount : Nat := 0x10000000000000

/-- The number of exponents that a double can have, `2 ^ 11`. -/
def exponentCount : Nat := 0x800

/-- What a double is. -/
inductive Parts where
  | finite (negative : Bool) (magnitude : Binary)
  | infinite (negative : Bool)
  | notANumber
  deriving DecidableEq, Repr

/-- The parts of a double with the given bits. -/
def Parts.ofBits (bits : UInt64) : Parts :=
  let n : Nat := bits.toNat
  let negative := n / (exponentCount * fractionCount) = 1
  let e : Nat := n / fractionCount % exponentCount
  let f : Nat := n % fractionCount
  if e = exponentCount - 1 then if f = 0 then .infinite negative else .notANumber
  else if e = 0 then .finite negative ⟨f, -1074, false⟩
  else .finite negative ⟨fractionCount + f, (e : Int) - 1075, f = 0 ∧ 1 < e⟩

/-- The parts of a double. -/
def Parts.ofFloat (x : Float) : Parts :=
  Parts.ofBits x.toBits

/-- `num / (den * 2 ^ q)` as a quotient of natural numbers. -/
def scaled (num den : Nat) (q : Int) : Nat × Nat :=
  (num * Nat.pow 2 (-q).toNat, den * Nat.pow 2 q.toNat)

/-- A quotient rounded to the nearest natural number, a tie to the even one. -/
def roundEven (num den : Nat) : Nat :=
  let n := num / den
  let twice := 2 * (num % den)
  if twice < den then n else if den < twice then n + 1 else n + n % 2

/-- The exponent of the last bit that a double near `num / den` has. -/
def unitExponent (num den : Nat) : Int :=
  let guess := (num.log2 : Int) - den.log2 - 52
  let (a, b) := scaled num den guess
  max (if a / b < fractionCount then guess - 1 else guess) (-1074)

/-- The bits of the double nearest to `num / den`; beyond the largest one, of infinity. -/
def nearestBits (num den : Nat) : UInt64 :=
  if num = 0 then 0
  else
    let q := unitExponent num den
    let (a, b) := scaled num den q
    let m := roundEven a b
    if m < fractionCount then m.toUInt64
    else
      let n := (q + 1075).toNat * fractionCount + (m - fractionCount)
      (min n ((exponentCount - 1) * fractionCount)).toUInt64

end Keyring.Decimal
