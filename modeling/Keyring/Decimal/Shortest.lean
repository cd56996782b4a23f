import Keyring.Decimal.Binary
/-!
# The shortest decimal that reads back

Every double is the nearest one to all reals of an interval around it. `shortest` finds the
decimal with the fewest digits in that interval, and of several the one nearest to the number, a
tie going to the even digit. It tries the decimal grids from coarse to fine; on each grid only the
two neighbours of the number have to be tried.
-/

namespace Keyring.Decimal

/-- The number `digits * 10 ^ exponent`. -/
structure Scientific where
  digits : Nat
  exponent : Int
  deriving DecidableEq, Repr

/-- The double `x` against the grid of multiples of `10 ^ s`: `x` is `at / step` grid steps, and
the reals that round to it reach from `low / step` to `high / step`. -/
structure Grid where
  low : Nat
  mid : Nat
  high : Nat
  step : Nat
  /-- The ends belong to the interval. -/
  closed : Bool

/-- Lays the grid of multiples of `10 ^ s` over `x`. -/
def Grid.over (x : Binary) (s : Int) : Grid :=
  let a := Nat.pow 2 (x.q - 2).toNat * Nat.pow 10 (-s).toNat
  { low := (4 * x.m - if x.atPowerOfTwo then 1 else 2) * a
    mid := 4 * x.m * a
    high := (4 * x.m + 2) * a
    step := Nat.pow 10 s.toNat * Nat.pow 2 (2 - x.q).toNat
    closed := x.m % 2 = 0 }

/-- Whether grid point `n` rounds to the number. -/
def Grid.reads (g : Grid) (n : Nat) : Bool :=
  let p := n * g.step
  if g.closed then g.low ≤ p && p ≤ g.high else g.low < p && p < g.high

/-- The grid point that rounds to the number, the nearer of two. -/
def Grid.pick? (g : Grid) : Option Nat :=
  let n := g.mid / g.step
  let below := g.mid - n * g.step
  let above := (n + 1) * g.step - g.mid
  match g.reads n, g.reads (n + 1) with
  | false, false => none
  | true, false => some n
  | false, true => some (n + 1)
  | true, true => some (if below < above || (below == above && n % 2 == 0) then n else n + 1)

/-- Tries the grids from `10 ^ s` downwards. -/
def shortestFrom (x : Binary) : (grids : Nat) → (s : Int) → Scientific
  | 0, s => ⟨(Grid.over x s).mid / (Grid.over x s).step, s⟩
  | grids + 1, s =>
    match (Grid.over x s).pick? with
    | some n => ⟨n, s⟩
    | none => shortestFrom x grids (s - 1)

/-- A power of ten above the number. -/
def topExponent (x : Binary) : Int :=
  (((x.m.log2 : Int) + x.q) * 30103).fdiv 100000 + 2

/-- The shortest decimal that reads back as the positive number `x`. -/
def shortest (x : Binary) : Scientific :=
  shortestFrom x 24 (topExponent x)

end Keyring.Decimal
