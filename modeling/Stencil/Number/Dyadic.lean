/-!
# Floats as multiples of powers of two

A finite double is a sign and a **dyadic** number `mantissa · 2 ^ scale`. Taking a
float apart and putting it together again lets the digits of a float and the
remainder of two floats be computed exactly, on natural numbers. An integer becomes the
float nearest to it.
-/

namespace Stencil

/-- What the 64 bits of a double say. -/
inductive FloatParts where
  | nan
  | infinite (negative : Bool)
  | finite (negative : Bool) (mantissa : Nat) (scale : Int)
  deriving DecidableEq, Repr

/-- The least mantissa of all 53 bits. -/
def leastFullMantissa : Nat := 0x10000000000000

/-- The parts of a float. Finite floats with a full mantissa have bit 52 set, the
tiny ones have the least scale, −1074. -/
def FloatParts.ofFloat (x : Float) : FloatParts :=
  let bits : Nat := x.toBits.toNat
  let negative := 0x8000000000000000 ≤ bits
  let field : Nat := bits / leastFullMantissa % 2048
  let fraction : Nat := bits % leastFullMantissa
  if field = 2047 then
    if fraction = 0 then .infinite negative else .nan
  else if field = 0 then .finite negative fraction (-1074)
  else .finite negative (leastFullMantissa + fraction) ((field : Int) - 1075)

/-- The bits from bit 53 on shifted out of `m`, and how many they are. -/
def dropLowBits (m : Nat) : Nat × Nat :=
  let excess := m.log2 + 1 - 53
  (m >>> excess, excess)

/-- The float `mantissa · 2 ^ scale`, exact if it is a double. -/
def dyadicFloat (negative : Bool) (mantissa : Nat) (scale : Int) : Float :=
  let (m, excess) := dropLowBits mantissa
  let x := Float.scaleB (Float.ofNat m) (scale + excess)
  if negative then -x else x

/-- The float nearest to an integer; of two that are equally near, the one whose mantissa is
even. -/
def Number.floatOf (n : Int64) : Float :=
  if n < 0 then -(-n).toUInt64.toFloat else n.toUInt64.toFloat

/-- The remainder of the division that truncates the quotient. It has the sign of
`a`, and it is exact. -/
def Number.floatRem (a b : Float) : Float :=
  match FloatParts.ofFloat a, FloatParts.ofFloat b with
  | .finite sign m p, .finite _ n q =>
    if n = 0 then 0.0 / 0.0
    else
      let scale := min p q
      let whole := (m <<< (p - scale).toNat) % (n <<< (q - scale).toNat)
      dyadicFloat sign whole scale
  | .finite .., .infinite _ => a
  | _, _ => 0.0 / 0.0

end Stencil
