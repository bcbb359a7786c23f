import Stencil.Datum
import Stencil.Json.Text
import Stencil.Number.Reading

/-!
# JSON trees

The tree of a JSON text, with its numbers kept as they are spelled and the members of
its objects in the order they come. A spelled number has two readings. As **data** it is
an integer if it has no fraction, no exponent and fits 64 bits, and otherwise a
**scaled** float: the leading digits that fit 64 bits, times or divided by a power of
ten, each step rounded. The **nearest** float is rounded once.
-/

namespace Stencil.Json

/-- A number as it is spelled. -/
structure Numeral where
  negative : Bool
  whole : List Char
  /-- The digits after the point, if there is one. -/
  fraction : Option (List Char) := none
  exponent : Option Int := none
  deriving DecidableEq, Repr

end Stencil.Json

namespace Stencil

/-- A JSON tree. -/
inductive Json where
  | null
  | bool (b : Bool)
  | number (n : Json.Numeral)
  | str (s : String)
  | array (items : List Json)
  | object (members : List (String × Json))

instance : Inhabited Json := ⟨.null⟩

namespace Json

/-- An integer as a number. -/
def ofInt (z : Int) : Json :=
  .number { negative := z < 0, whole := Nat.toDigits 10 z.natAbs }

def ofNat (n : Nat) : Json := ofInt n

namespace Numeral

/-- Whether the number has neither a fraction nor an exponent. -/
def isInteger (n : Numeral) : Bool :=
  n.fraction.isNone && n.exponent.isNone

/-- Whether all digits before the exponent are zeros. -/
def isZero (n : Numeral) : Bool :=
  (n.whole ++ n.fraction.getD []).all (· == '0')

/-- The value of the whole digits, with the sign. -/
def toInt (n : Numeral) : Int :=
  let size := (Nat.ofDigitChars 10 n.whole 0 : Int)
  if n.negative then -size else size

/-- The nearest float. -/
def nearest (n : Numeral) : Float :=
  let text : Number.DecimalText := ⟨n.whole, n.fraction.getD [], n.exponent.getD 0⟩
  let x := text.value Number.nearestFloat
  if n.negative then -x else x

/-! ### Scaled floats -/

/-- Takes digits to the end of `m` as long as the result fits 64 bits. Gives the result and
how many digits are left over. -/
def takeDigits (m : Nat) : List Char → Nat × Nat
  | [] => (m, 0)
  | c :: cs =>
    let next := m * 10 + (c.toNat - '0'.toNat)
    if next < UInt64.size then takeDigits next cs else (m, cs.length + 1)

/-- Divides by a power of ten in steps that floats can hold. -/
def scaleDown (x : Float) (n : Nat) : Float :=
  if n ≤ 308 then x / Float.ofScientific 1 false n
  else if x == 0.0 then x
  else scaleDown (x / Float.ofScientific 1 false 308) (n - 308)
termination_by n
decreasing_by omega

/-- `m · 10 ^ e` as a scaled float, unless it is out of range. -/
def scale? (m : Nat) (e : Int) : Option Float :=
  let x := Float.ofNat m
  if e < 0 then some (scaleDown x e.natAbs)
  else if e ≤ 308 then
    let y := x * Float.ofScientific 1 false e.natAbs
    if y.isInf then none else some y
  else if x == 0.0 then some x else none

/-- The scaled float, unless it is out of range. -/
def scaled? (n : Numeral) : Option Float :=
  let (m, excess) := takeDigits 0 n.whole
  let (m, left) := takeDigits m (n.fraction.getD [])
  let places := (n.fraction.getD []).length - left
  let size := scale? m (excess - places + n.exponent.getD 0)
  size.map fun x => if n.negative then -x else x

/-- The number as data, unless it is out of range. -/
def toDatum? (n : Numeral) : Option Datum :=
  let z := n.toInt
  if n.isInteger && !n.negative && z < UInt64.size then some (.unsigned (UInt64.ofNat z.toNat))
  else if n.isInteger && Int64.minValue.toInt ≤ z && z < 0 then some (.signed (Int64.ofInt z))
  else n.scaled?.map .float

/-- The number as it is spelled. -/
def text (n : Numeral) : String :=
  let sign := if n.negative then ['-'] else []
  let fraction := match n.fraction with
    | some ds => '.' :: ds
    | none => []
  let exponent := match n.exponent with
    | some e => 'e' :: (toString e).toList
    | none => []
  String.ofList (sign ++ n.whole ++ fraction ++ exponent)

end Numeral

mutual

/-- A tree as data. Numbers out of range do not come from a JSON text. -/
def toDatum : Json → Datum
  | .null => .unit
  | .bool b => .bool b
  | .number n => n.toDatum?.getD .unit
  | .str s => .str s
  | .array items => .seq (toData items)
  | .object members => .map (toEntries members)

def toData : List Json → List Datum
  | [] => []
  | j :: js => toDatum j :: toData js

def toEntries : List (String × Json) → List (Option Datum × Option Datum)
  | [] => []
  | (k, j) :: ms => (some (.str k), some (toDatum j)) :: toEntries ms

end

mutual

/-- The tree as text without blanks. -/
def compact : Json → String
  | .null => "null"
  | .bool b => if b then "true" else "false"
  | .number n => n.text
  | .str s => quote s
  | .array items => "[" ++ Text.join "," (compactItems items) ++ "]"
  | .object members => "\x7b" ++ Text.join "," (compactMembers members) ++ "\x7d"

def compactItems : List Json → List String
  | [] => []
  | j :: js => compact j :: compactItems js

def compactMembers : List (String × Json) → List String
  | [] => []
  | (k, j) :: ms => (quote k ++ ":" ++ compact j) :: compactMembers ms

end

end Json

end Stencil
