import Stencil.Calendar.Pattern
import Stencil.Json.Text
import Stencil.Text.Replace
import Stencil.Value.Basic

/-!
# The text of a value

`Value.display` is what an output tag writes: nothing for null, the items of a list with
commas between them, and JSON for a map. `Value.json` is the compact JSON of a value, in
which dates are strings.
-/

namespace Stencil.Value

/-- The integer text of a float that is whole and small enough to be one. -/
def wholeFloat? (x : Float) : Option Int64 :=
  if x.isFinite && x.floor == x && x.abs < 1e15 then some x.toInt64 else none

/-- Floats that are not written as integers have no exponent and no bare point. -/
def floatLayout : Layout where
  places := none
  keepsPoint := false
  signsExponent := false
  tie := .up
  nan := "NaN"
  infinity := "inf"
  minusInfinity := "-inf"

/-- The text of a float. -/
def displayFloat (x : Float) : String :=
  match wholeFloat? x with
  | some n => toString n.toInt
  | none => floatLayout.write x

mutual

/-- The compact JSON of a value. -/
def json : Value → String
  | .null => "null"
  | .bool b => if b then "true" else "false"
  | .int n => toString n.toInt
  | .float x => Json.writeFloat x
  | .str s => Json.quote s
  | .date d => Json.quote d.display
  | .dateTime d => Json.quote d.display
  | .list items => "[" ++ Text.join "," (jsonItems items) ++ "]"
  | .map entries => "\x7b" ++ Text.join "," (jsonEntries entries) ++ "\x7d"

def jsonItems : List Value → List String
  | [] => []
  | v :: vs => json v :: jsonItems vs

def jsonEntries : List (String × Value) → List String
  | [] => []
  | (k, v) :: es => (Json.quote k ++ ":" ++ json v) :: jsonEntries es

end

mutual

/-- The text that a value is written as. -/
def display : Value → String
  | .null => ""
  | .bool b => if b then "true" else "false"
  | .int n => toString n.toInt
  | .float x => displayFloat x
  | .str s => s
  | .date d => d.display
  | .dateTime d => d.display
  | .list items => Text.join "," (displayItems items)
  | .map entries => json (.map entries)

def displayItems : List Value → List String
  | [] => []
  | v :: vs => display v :: displayItems vs

end

end Stencil.Value
