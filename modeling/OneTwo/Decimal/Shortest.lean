/-!
The shortest decimal that reads back as a given binary number. A number `m · 2^e` stands for all
reals that round to it: those between the midpoints to its two neighbours, the midpoints included if
`m` is even. On the grid of decimals with a given count of digits only the two neighbours of the
number itself have to be tried. The first count for which one of them lies in the interval gives the
answer; of two that do the nearer is taken, and of two equally near the larger.

All comparisons are of natural numbers: the midpoints and the number itself are kept over one common
denominator.
-/

namespace OneTwo.Decimal

/-- The decimal `digits · 10^exponent`. -/
structure Scientific where
  digits : Nat
  exponent : Int

/-- The reals between `low` and `high`, each over `scale`, that round to `centre` over `scale`. -/
structure Interval where
  low : Nat
  centre : Nat
  high : Nat
  scale : Nat
  closed : Bool

namespace Interval

/-- The reals that round to `m · 2^e`. Below a power of two the next number is only half as far away
as above it, unless the exponent is the least one; `uneven` says that this is so. -/
def ofBinary (m : Nat) (e : Int) (uneven : Bool) : Interval :=
  let factor := Nat.pow 2 (e - 2).toNat
  { low := (4 * m - if uneven then 1 else 2) * factor
    centre := 4 * m * factor
    high := (4 * m + 2) * factor
    scale := Nat.pow 2 (2 - e).toNat
    closed := m % 2 == 0 }

def inUnits (x : Interval) (exponent : Int) : Interval :=
  let factor := Nat.pow 10 (-exponent).toNat
  { x with
    low := x.low * factor
    centre := x.centre * factor
    high := x.high * factor
    scale := x.scale * Nat.pow 10 exponent.toNat }

def contains (x : Interval) (n : Nat) : Bool :=
  if x.closed then x.low ≤ n * x.scale && n * x.scale ≤ x.high
  else x.low < n * x.scale && n * x.scale < x.high

/-- The nearest whole number to the centre that lies in the interval, if one next to it does. -/
def nearest? (x : Interval) : Option Nat :=
  let below := x.centre / x.scale
  match x.contains below, x.contains (below + 1) with
  | true, true => some (if 2 * x.centre < (2 * below + 1) * x.scale then below else below + 1)
  | true, false => some below
  | false, true => some (below + 1)
  | false, false => none

end Interval

def digitCount (n : Nat) : Nat :=
  (toString n).length

/-- The exponent `k` with `10^(k-1) ≤ n/d < 10^k`, for positive `n` and `d`. -/
def magnitude (n d : Nat) : Int :=
  if d ≤ n then digitCount (n / d) else 1 - digitCount ((d - 1) / n)

def Scientific.trim (x : Scientific) : Scientific :=
  let rec go : Nat → Scientific → Scientific
    | 0, x => x
    | fuel + 1, x => if x.digits % 10 = 0 then go fuel ⟨x.digits / 10, x.exponent + 1⟩ else x
  go (digitCount x.digits - 1) x

/-- That many digits tell any double from its neighbours. -/
def maxDigits : Nat := 17

def shortest (x : Interval) : Scientific :=
  let top := magnitude x.centre x.scale
  let onGrid (count : Nat) : Option Scientific :=
    (x.inUnits (top - count)).nearest?.map fun digits => ⟨digits, top - count⟩
  let finest := x.inUnits (top - maxDigits)
  let cut : Scientific := ⟨finest.centre / finest.scale, top - maxDigits⟩
  ((List.range' 1 maxDigits).findSome? onGrid).getD cut |>.trim

end OneTwo.Decimal
