import ByteScope.Decimal.Binary64

/-!
# The fewest digits that read back

Every number stands for an interval of reals: those that round to it. Among the decimals in that
interval `shortest` takes one with the fewest digits, and of those the nearest. It looks through the
grids of the multiples of `10 ^ k` from the coarsest on; if a grid has a point in the interval then one
of the two grid points next to the number itself is such a point.
-/

namespace ByteScope.Binary64

/-- A number `m * 2 ^ e`, its interval and the grid of `10 ^ k`, all times one common factor that makes
them integers. -/
structure Grid where
  value : Nat
  low : Nat
  high : Nat
  step : Nat
  closed : Bool

def grid (m : Nat) (e k : Int) : Grid :=
  let below := if m = 2 ^ 52 ∧ minExponent < e then 1 else 2
  let factor := 2 ^ (e - 2).toNat * 10 ^ (-k).toNat
  { value := 4 * m * factor
    low := (4 * m - below) * factor
    high := (4 * m + 2) * factor
    step := 10 ^ k.toNat * 2 ^ (2 - e).toNat
    closed := m % 2 = 0 }

/-- Does the multiple `s` of the step round to the number? -/
def Grid.hits (g : Grid) (s : Nat) : Bool :=
  if g.closed then g.low ≤ s * g.step && s * g.step ≤ g.high
  else g.low < s * g.step && s * g.step < g.high

/-- The nearest multiple of the step inside the interval, the even one of two equally near. -/
def Grid.nearest? (g : Grid) : Option Nat :=
  let s := g.value / g.step
  let r := g.value % g.step
  match 0 < s && g.hits s, g.hits (s + 1) with
  | true, true => some (if g.step < 2 * r ∨ (2 * r = g.step ∧ s % 2 = 1) then s + 1 else s)
  | true, false => some s
  | false, true => some (s + 1)
  | false, false => none

/-- Looks through the grids of `10 ^ k`, `10 ^ (k - 1)` and so on, at most `n` of them. -/
def scanGrids (m : Nat) (e : Int) : Nat → Int → Nat × Int
  | 0, k => (0, k)
  | n + 1, k =>
    match (grid m e k).nearest? with
    | some s => (s, k)
    | none => scanGrids m e n (k - 1)

/-- The shortest decimal `digits * 10 ^ scale` for a positive `m * 2 ^ e`. No number reaches
`10 ^ 309`, and every grid finer than `10 ^ (-325)` has a point in every interval. -/
def shortest (m : Nat) (e : Int) : Nat × Int := scanGrids m e 636 309

end ByteScope.Binary64
