import Stencil.Value.Display
import Stencil.Value.Number

/-!
# Parts of a value

A part is reached by **attribute** (`user.name`, `items.0`) or by **index**
(`items[0]`, `map["key"]`), where a negative index counts from the end. A loop walks
over the **pairs** of a value: positions and items, names and entries, or positions and
characters.
-/

namespace Stencil.Value

/-- A position that an attribute name spells, a plus sign being allowed. -/
def readPosition? : List Char → Option Nat
  | '+' :: cs => Number.readNat? 10 cs
  | cs => Number.readNat? 10 cs

/-- The part under an attribute name. -/
def attr? (v : Value) (key : String) : Option Value :=
  match v with
  | .map entries => Table.find? key entries
  | .list items => (readPosition? key.toList).bind fun i => items[i]?
  | _ => none

/-- The item at a position, counted from the end if it is negative. -/
def itemAt? {α : Type} (items : List α) (i : Int) : Option α :=
  let i := if i < 0 then items.length + i else i
  if i < 0 then none else items[i.toNat]?

/-- The part under an index. -/
def item? (v index : Value) : Option Value :=
  match v with
  | .map entries => Table.find? index.display entries
  | .list items => index.toInt?.bind fun i => itemAt? items i.toInt
  | .str s => index.toInt?.bind fun i => (itemAt? s.toList i.toInt).map fun c => ofChars [c]
  | _ => none

/-- Whether `needle` is an item, a name or a piece of the text. -/
def contains (v needle : Value) : Bool :=
  match v with
  | .list items => items.any fun item => item.looselyEquals needle
  | .map entries => Table.has needle.display entries
  | .str s => Text.occurs needle.display.toList s.toList
  | _ => false

/-- The items with their positions, which count from `start`. -/
def numbered (start : Nat) : List Value → List (Value × Value)
  | [] => []
  | v :: vs => (ofNat start, v) :: numbered (start + 1) vs

/-- The pairs that a loop walks over. -/
def pairs : Value → Except Error (List (Value × Value))
  | .null => .ok []
  | .list items => .ok (numbered 0 items)
  | .map entries => .ok (entries.map fun e => (.str e.1, e.2))
  | .str s => .ok (numbered 0 (s.toList.map fun c => ofChars [c]))
  | v => .error (.render (.notIterable v.typeName))

end Stencil.Value
