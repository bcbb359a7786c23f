import Stencil.Number.Dyadic

/-!
# The fewest digits that read back

The printed form of a float starts from a **decimal**: the shortest digit string
whose value rounds back to that float, and among those of that length the nearest.
The numbers that round to `m · 2 ^ q` form an interval around it, which contains its
ends exactly when `m` is even. For each count of digits the value has two neighbours
on the decimal grid; the first count at which one of them lies in the interval wins.
-/

namespace Stencil

/-- The number `d₀.d₁d₂… · 10 ^ exponent`, with digits as characters. -/
structure Decimal where
  digits : List Char
  exponent : Int
  deriving DecidableEq, Repr

/-- Which of two equally near digit strings is taken. -/
inductive TieRule where
  | up
  | even
  deriving DecidableEq, Repr

/-- The interval of the numbers that round to a value, all as multiples of
`1 / unit`. -/
structure Rounding where
  low : Nat
  value : Nat
  high : Nat
  unit : Nat
  closed : Bool

namespace Rounding

/-- The interval that rounds to `m · 2 ^ q`. Below a power of two the floats lie twice
as dense, except among the tiny ones. -/
def ofDyadic (m : Nat) (q : Int) : Rounding :=
  let narrow := m = leastFullMantissa && q > -1074
  let factor := 1 <<< (q - 2).toNat
  { low := (4 * m - if narrow then 1 else 2) * factor
    value := 4 * m * factor
    high := (4 * m + 2) * factor
    unit := 1 <<< (2 - q).toNat
    closed := m % 2 = 0 }

/-- The same interval, counted in multiples of `10 ^ e`. -/
def onGrid (r : Rounding) (e : Int) : Rounding :=
  let up := Nat.pow 10 (-e).toNat
  { r with
    low := r.low * up
    value := r.value * up
    high := r.high * up
    unit := r.unit * Nat.pow 10 e.toNat }

/-- Whether the `c`-th multiple of the unit rounds to the value. -/
def admits (r : Rounding) (c : Nat) : Bool :=
  if r.closed then r.low ≤ c * r.unit && c * r.unit ≤ r.high
  else r.low < c * r.unit && c * r.unit < r.high

/-- The multiple of the unit that is taken for the value, if a neighbour is admitted. -/
def neighbour? (tie : TieRule) (r : Rounding) : Option Nat :=
  let c := r.value / r.unit
  match r.admits c, r.admits (c + 1) with
  | false, false => none
  | true, false => some c
  | false, true => some (c + 1)
  | true, true =>
    let below := r.value - c * r.unit
    let above := (c + 1) * r.unit - r.value
    if below < above then some c
    else if above < below then some (c + 1)
    else match tie with
      | .up => some (c + 1)
      | .even => some (if c % 2 = 0 then c else c + 1)

/-- The exponent `k` with `10 ^ k ≤ value < 10 ^ (k + 1)`. -/
def magnitude (r : Rounding) : Int :=
  if r.unit ≤ r.value then ((Nat.toDigits 10 (r.value / r.unit)).length : Int) - 1
  else
    let places := (Nat.toDigits 10 (r.unit / r.value)).length
    if r.unit ≤ r.value * Nat.pow 10 (places - 1) then -((places : Int) - 1) else -(places : Int)

/-- The first grid from `10 ^ e` downwards on which a neighbour is admitted. Seventeen
digits are always enough, so `count` is never used up. -/
def search (tie : TieRule) (r : Rounding) : (count : Nat) → (e : Int) → Nat × Int
  | 0, e => ((r.onGrid e).value / (r.onGrid e).unit, e)
  | count + 1, e =>
    match (r.onGrid e).neighbour? tie with
    | some c => (c, e)
    | none => search tie r count (e - 1)

end Rounding

/-- The digits without the zeros at their end. -/
def dropTrailingZeros (ds : List Char) : List Char :=
  (ds.reverse.dropWhile (· == '0')).reverse

/-- The shortest decimal that reads back as `m · 2 ^ q`, for `m` not zero. -/
def Decimal.shortest (tie : TieRule) (m : Nat) (q : Int) : Decimal :=
  let r := Rounding.ofDyadic m q
  let (c, e) := r.search tie 17 r.magnitude
  let ds := Nat.toDigits 10 c
  { digits := dropTrailingZeros ds, exponent := e + (ds.length : Int) - 1 }

end Stencil
