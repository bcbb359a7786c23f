import Stencil.Calendar.Date
import Stencil.Number.Dyadic
import Stencil.Table

/-!
# Values

What the names of a template stand for: nothing, truth values, 64-bit integers, floats,
text, dates, date-times, lists, and maps from names to values. This file holds the type,
the questions that every value answers, and the two equalities: **same**, which tells
an integer from a float, and **loosely equal**, which compares the two by magnitude.
-/

namespace Stencil

/-- A template value. The entries of a map are in ascending order of their names. -/
inductive Value where
  | null
  | bool (b : Bool)
  | int (n : Int64)
  | float (x : Float)
  | str (s : String)
  | date (d : Date)
  | dateTime (d : DateTime)
  | list (items : List Value)
  | map (entries : List (String × Value))

instance : Inhabited Value := ⟨.null⟩

namespace Value

/-- The value of a text. -/
def ofChars (cs : List Char) : Value := .str (String.ofList cs)

/-- The value of a count. -/
def ofNat (n : Nat) : Value := .int (Int64.ofNat n)

/-- The word for the kind of value in error texts. -/
def typeName : Value → String
  | .null => "null"
  | .bool _ => "bool"
  | .int _ => "integer"
  | .float _ => "float"
  | .str _ => "string"
  | .date _ => "date"
  | .dateTime _ => "datetime"
  | .list _ => "list"
  | .map _ => "map"

def isNull : Value → Bool
  | .null => true
  | _ => false

/-- Whether a condition of this value holds. -/
def isTruthy : Value → Bool
  | .null => false
  | .bool b => b
  | .int n => n != 0
  | .float x => x != 0.0 && !x.isNaN
  | .str s => !s.isEmpty
  | .list items => !items.isEmpty
  | .map entries => !entries.isEmpty
  | .date _ | .dateTime _ => true

/-- The text of a string value. -/
def text? : Value → Option String
  | .str s => some s
  | _ => none

/-- The number of characters, items or entries. -/
def length? : Value → Option Nat
  | .str s => some s.length
  | .list items => some items.length
  | .map entries => some entries.length
  | _ => none

def isEmpty : Value → Bool
  | .null => true
  | v => v.length? == some 0

def isIterable : Value → Bool
  | .list _ | .map _ => true
  | _ => false

/-! ### Equality -/

mutual

/-- Whether two values are the same. Floats are compared as numbers. -/
def same : Value → Value → Bool
  | .null, .null => true
  | .bool a, .bool b => a == b
  | .int a, .int b => a == b
  | .float a, .float b => a == b
  | .str a, .str b => a == b
  | .date a, .date b => a == b
  | .dateTime a, .dateTime b => a == b
  | .list as, .list bs => sameItems as bs
  | .map as, .map bs => sameEntries as bs
  | _, _ => false

/-- Whether two lists hold the same values in the same order. -/
def sameItems : List Value → List Value → Bool
  | [], [] => true
  | a :: as, b :: bs => same a b && sameItems as bs
  | _, _ => false

/-- Whether two maps hold the same names with the same values. -/
def sameEntries : List (String × Value) → List (String × Value) → Bool
  | [], [] => true
  | (k, a) :: as, (l, b) :: bs => k == l && same a b && sameEntries as bs
  | _, _ => false

end

/-- Equality up to the difference of an integer and a float. Inside lists and maps that
difference still counts. -/
def looselyEquals : Value → Value → Bool
  | .int a, .float b => Number.floatOf a == b
  | .float a, .int b => Number.floatOf b == a
  | a, b => same a b

end Value

end Stencil
