import Stencil.Error
import Stencil.Number.Reading
import Stencil.Text.Blank
import Stencil.Value.Basic

/-!
# Values as numbers

Null and truth values count as 0 and 1, a text counts as the number it spells, blanks
around it aside. Arithmetic on two integers is exact: where the exact result does not
fit 64 bits, the operation is done on floats instead. With a float on either side
everything is done on floats.
-/

namespace Stencil

/-- A number as arithmetic sees it. -/
inductive Number where
  | int (n : Int64)
  | float (x : Float)

namespace Number

/-- The number as a float. -/
def toFloat : Number → Float
  | .int n => floatOf n
  | .float x => x

/-- Whether the number is zero. A float is so with either sign. -/
def isZero : Number → Bool
  | .int n => n == 0
  | .float x => x == 0.0

/-- Whether a float is finite and has no fraction. -/
def isWhole (x : Float) : Bool :=
  x.isFinite && x.floor == x

/-- The number as an integer, if it is whole. Too large a float gives the nearest
integer. -/
def toInt? : Number → Option Int64
  | .int n => some n
  | .float x => if isWhole x then some x.toInt64 else none

/-- The number that a text spells. -/
def ofText? (s : String) : Option Number :=
  let cs := Text.trim s.toList
  match readInteger? 10 cs with
  | some n => some (.int n)
  | none => (readFloat? cs).map .float

/-- The exact integer if it fits 64 bits, and the float otherwise. -/
def exactOr (z : Int) (x : Float) : Value :=
  match ofInt? z with
  | some n => .int n
  | none => .float x

/-- An integer power, if it fits 64 bits. A base beyond ±1 outgrows them before exponent
64. -/
def pow? (a : Int) (b : Nat) : Option Int64 :=
  if a = 0 then some (if b = 0 then 1 else 0)
  else if a = 1 then some 1
  else if a = -1 then some (if b % 2 = 0 then 1 else -1)
  else if b < 64 then ofInt? (Int.pow a b)
  else none

/-- The order of two numbers. Not-a-number has no place in it. -/
def compare? : Number → Number → Option Ordering
  | .int a, .int b => some (compare a.toInt b.toInt)
  | a, b =>
    let x := a.toFloat
    let y := b.toFloat
    if x < y then some .lt else if x == y then some .eq else if y < x then some .gt else none

end Number

namespace Value

/-- The number that a value counts as. -/
def toNumber? : Value → Option Number
  | .null => some (.int 0)
  | .bool b => some (.int (if b then 1 else 0))
  | .int n => some (.int n)
  | .float x => some (.float x)
  | .str s => Number.ofText? s
  | _ => none

/-- The value as an integer, if it counts as a whole number. -/
def toInt? (v : Value) : Option Int64 :=
  v.toNumber?.bind Number.toInt?

/-- The value as a float, if it counts as a number. -/
def toFloat? (v : Value) : Option Float :=
  v.toNumber?.map Number.toFloat

/-! ### Arithmetic -/

/-- Both operands as numbers. -/
def operands (op : String) (a b : Value) : Except Error (Number × Number) :=
  match a.toNumber?, b.toNumber? with
  | some x, some y => .ok (x, y)
  | _, _ => .error (.render (.operands op a.typeName b.typeName))

/-- Texts and lists are joined, numbers added. -/
def add : Value → Value → Except Error Value
  | .str a, .str b => .ok (.str (a ++ b))
  | .list as, .list bs => .ok (.list (as ++ bs))
  | a, b => do
    match ← operands "+" a b with
    | (.int x, .int y) =>
      return Number.exactOr (x.toInt + y.toInt) (Number.floatOf x + Number.floatOf y)
    | (x, y) => return .float (x.toFloat + y.toFloat)

def sub (a b : Value) : Except Error Value := do
  match ← operands "-" a b with
  | (.int x, .int y) =>
    return Number.exactOr (x.toInt - y.toInt) (Number.floatOf x - Number.floatOf y)
  | (x, y) => return .float (x.toFloat - y.toFloat)

def mul (a b : Value) : Except Error Value := do
  match ← operands "*" a b with
  | (.int x, .int y) =>
    return Number.exactOr (x.toInt * y.toInt) (Number.floatOf x * Number.floatOf y)
  | (x, y) => return .float (x.toFloat * y.toFloat)

/-- Both operands of a division, whose divisor must not be zero. -/
def divisionOperands (op : String) (fault : RenderFault) (a b : Value) :
    Except Error (Number × Number) := do
  let (x, y) ← operands op a b
  if y.isZero then throw (.render fault)
  return (x, y)

/-- A quotient of integers is an integer if there is no remainder. -/
def div (a b : Value) : Except Error Value := do
  match ← divisionOperands "/" .divisionByZero a b with
  | (.int x, .int y) =>
    if x.toInt.tmod y.toInt = 0 then
      return Number.exactOr (x.toInt.tdiv y.toInt) (Number.floatOf x / Number.floatOf y)
    else return .float (Number.floatOf x / Number.floatOf y)
  | (x, y) => return .float (x.toFloat / y.toFloat)

/-- The whole quotient. That of two integers leaves a remainder that is not negative,
that of floats is the floor. -/
def floorDiv (a b : Value) : Except Error Value := do
  match ← divisionOperands "//" .divisionByZero a b with
  | (.int x, .int y) =>
    return Number.exactOr (x.toInt.ediv y.toInt) (Number.floatOf x / Number.floatOf y).floor
  | (x, y) => return .float (x.toFloat / y.toFloat).floor

/-- The remainder of the division that truncates, so it has the sign of `a`. -/
def rem (a b : Value) : Except Error Value := do
  match ← divisionOperands "%" .moduloByZero a b with
  | (.int x, .int y) => return .int (Int64.ofInt (x.toInt.tmod y.toInt))
  | (x, y) => return .float (Number.floatRem x.toFloat y.toFloat)

/-- A power of integers is an integer if its exponent has 32 bits and it fits 64. -/
def pow (a b : Value) : Except Error Value := do
  match ← operands "**" a b with
  | (.int x, .int y) =>
    if 0 ≤ y.toInt && y.toInt < UInt32.size then
      match Number.pow? x.toInt y.toInt.toNat with
      | some n => return .int n
      | none => return .float ((Number.floatOf x).pow (Number.floatOf y))
    else return .float ((Number.floatOf x).pow (Number.floatOf y))
  | (x, y) => return .float (x.toFloat.pow y.toFloat)

def neg (v : Value) : Except Error Value :=
  match v.toNumber? with
  | some (.int n) => .ok (Number.exactOr (-n.toInt) (-Number.floatOf n))
  | some (.float x) => .ok (.float (-x))
  | none => .error (.render (.notNegatable v.typeName))

/-! ### Order -/

/-- The order of two values, if they have one: texts by code points, dates by time, and
all else but lists and maps as numbers. -/
def compare? : Value → Value → Option Ordering
  | .str a, .str b => some (compare a b)
  | .date a, .date b => some (a.order b)
  | .dateTime a, .dateTime b => some (a.order b)
  | .list _, _ | .map _, _ | _, .list _ | _, .map _ => none
  | a, b => do Number.compare? (← a.toNumber?) (← b.toNumber?)

end Value

end Stencil
