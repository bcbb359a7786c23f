import Stencil.Number.Shortest

/-!
# How a float is written

A **layout** fixes what the digits of a float leave open: for which exponents the
number is written out in places, whether a whole number keeps a `.0`, how the
exponent is signed, and what stands for the values that are not numbers.
-/

namespace Stencil

/-- The conventions of a float format. -/
structure Layout where
  /-- The exponents written out in places; all of them if there are no bounds. -/
  places : Option (Int × Int)
  /-- Whether a whole number ends in `.0`. -/
  keepsPoint : Bool
  /-- Whether a positive exponent has a plus sign. -/
  signsExponent : Bool
  tie : TieRule
  nan : String
  infinity : String
  minusInfinity : String

namespace Layout

/-- Writes a decimal out in places. -/
def inPlaces (layout : Layout) (d : Decimal) : List Char :=
  let n := d.digits.length
  if d.exponent < 0 then
    '0' :: '.' :: List.replicate (-d.exponent - 1).toNat '0' ++ d.digits
  else
    let whole := d.exponent.toNat + 1
    if n ≤ whole then
      d.digits ++ List.replicate (whole - n) '0' ++ (if layout.keepsPoint then ['.', '0'] else [])
    else d.digits.take whole ++ '.' :: d.digits.drop whole

/-- Writes a decimal with an exponent. -/
def withExponent (layout : Layout) (d : Decimal) : List Char :=
  let sign := if d.exponent < 0 then ['-'] else if layout.signsExponent then ['+'] else []
  let mantissa := match d.digits with
    | [] => []
    | [c] => [c]
    | c :: cs => c :: '.' :: cs
  mantissa ++ 'e' :: sign ++ Nat.toDigits 10 d.exponent.natAbs

/-- Whether numbers of this exponent are written out in places. -/
def isPlain (layout : Layout) (exponent : Int) : Bool :=
  match layout.places with
  | none => true
  | some (low, high) => low ≤ exponent && exponent ≤ high

/-- The written form of a float. -/
def write (layout : Layout) (x : Float) : String :=
  match FloatParts.ofFloat x with
  | .nan => layout.nan
  | .infinite false => layout.infinity
  | .infinite true => layout.minusInfinity
  | .finite negative m q =>
    let d := if m = 0 then ⟨['0'], 0⟩ else Decimal.shortest layout.tie m q
    let body := if layout.isPlain d.exponent then layout.inPlaces d else layout.withExponent d
    String.ofList (if negative then '-' :: body else body)

end Layout

end Stencil
