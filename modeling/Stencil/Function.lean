import Stencil.Value.Range
import Stencil.Value.Sorting

/-!
# Functions

A **function** takes arguments to a value: `range(1, 10, 3)`, `max(prices)`.
-/

namespace Stencil

/-- What a function does with its arguments. -/
abbrev Function := List Value → Except Error Value

namespace Function

/-- `range(last)`, `range(first, last)` or `range(first, last, step)`. -/
def range : Function
  | [] => .error (.render .rangeArguments)
  | [last] => Value.range (.int 0) last none
  | [first, last] => Value.range first last none
  | first :: last :: step :: _ => Value.range first last (some step)

/-- The extreme of the arguments, or of the list that is the only argument. -/
def extreme (beyond : Ordering) : Function
  | [.list items] => .ok (Value.extreme beyond items)
  | args => .ok (Value.extreme beyond args)

/-- The functions that every engine has. -/
def builtins : Table Function := Table.ofEntries [
  ("range", range),
  ("min", extreme .lt),
  ("max", extreme .gt)]

end Function

end Stencil
