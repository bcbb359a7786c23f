/-!
# Powers of ten for rounding

Rounding to decimal places scales by a power that is built by **repeated squaring**,
so that its last bit depends on the order of the products.
-/

namespace Stencil.Number

/-- `r · a ^ n`, the factors taken along the bits of `n` from the lowest. -/
def powBySquaring (r a : Float) (n : Nat) : Float :=
  let r := if n % 2 = 1 then r * a else r
  if n / 2 = 0 then r else powBySquaring r (a * a) (n / 2)
termination_by n
decreasing_by omega

/-- The power with an integer exponent; a negative one gives the reciprocal. -/
def powInt (a : Float) (n : Int) : Float :=
  let p := powBySquaring 1.0 a n.natAbs
  if n < 0 then 1.0 / p else p

end Stencil.Number
