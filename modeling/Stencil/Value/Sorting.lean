import Stencil.Sorting.Basic
import Stencil.Value.Number

/-!
# Sorting and extremes

A list is sorted by the order of its values. Values without an order between them count as
equal; if there are such values, a long list may turn out to have no order at all.

The extreme of a list is the value that the walk from left to right ends with, when a
value gives way only to one that lies beyond it.
-/

namespace Stencil.Value

/-- Whether `a` comes strictly before `b`. -/
def isLess (a b : Value) : Bool :=
  a.compare? b == some .lt

/-- The values in ascending order, if they have one. -/
def sort? (items : List Value) : Option (List Value) :=
  Sorting.sort? isLess items

/-- The value that is left of `best` and those that follow it, where a value gives way
to one that compares as `beyond` to it. -/
def extremeFrom (beyond : Ordering) (best : Value) : List Value → Value
  | [] => best
  | v :: vs => extremeFrom beyond (if v.compare? best == some beyond then v else best) vs

/-- The first of the least values for `lt`, of the greatest for `gt`; null if there are
none. -/
def extreme (beyond : Ordering) : List Value → Value
  | [] => .null
  | v :: vs => extremeFrom beyond v vs

end Stencil.Value
