import Stencil.Sorting.Stretch

/-!
# Stable quicksort

A list is **parted** around one of its items, the **pivot**: what is less than the pivot goes
to the left, and all else goes to the right; each side keeps its order. Where nothing is
less than the pivot, all that the pivot is not less than is in its place already, and only
the rest is sorted on.

The pivot is the middle one of three items, each of which in a large list is again the middle
of three. If the list has been parted too often, it is sorted by blocks instead.
-/

namespace Stencil.Sorting

variable {α : Type} (less : α → α → Bool)

/-- Whether the item at a position is less than the one at another. -/
def lessAt (items : Array α) (i j : Nat) : Bool :=
  match items[i]?, items[j]? with
  | some a, some b => less a b
  | _, _ => false

/-- The position, of three, of the middle item. -/
def middle (items : Array α) (i j k : Nat) : Nat :=
  let below := lessAt less items i j
  if below == lessAt less items i k then
    if lessAt less items j k != below then k else j
  else i

/-- The position of a pivot among the `n` items from `start` on. -/
def pivotFrom (items : Array α) (start n : Nat) : Nat :=
  let step := n / 8
  if 64 ≤ n then
    middle less items (pivotFrom items start step) (pivotFrom items (start + 4 * step) step)
      (pivotFrom items (start + 7 * step) step)
  else middle less items start (start + 4 * step) (start + 7 * step)
termination_by n
decreasing_by all_goals omega

/-- Sorts a list, parting it and its parts at most `limit` times one inside the other. No item
is less than the `bound`, if there is one. -/
def quicksort? : (limit : Nat) → (bound : Option α) → List α → Option (List α)
  | 0, _, items =>
    if items.length ≤ blockLength then sortBlock? less items else sortByBlocks? less items
  | limit + 1, bound, items =>
    if items.length ≤ blockLength then sortBlock? less items
    else
      let position := pivotFrom less items.toArray 0 items.length
      let before := items.take position
      match items.drop position with
      | [] => sortByBlocks? less items
      | pivot :: after =>
        let lefts := before.filter (less · pivot) ++ after.filter (less · pivot)
        if lefts.isEmpty || bound.any (inOrder less pivot) then do
          let equal := before.filter (inOrder less · pivot) ++
            pivot :: after.filter (inOrder less · pivot)
          let rights := before.filter (less pivot) ++ after.filter (less pivot)
          return equal ++ (← quicksort? limit none rights)
        else do
          let rights := before.filter (inOrder less pivot) ++
            pivot :: after.filter (inOrder less pivot)
          return (← quicksort? limit bound lefts) ++ (← quicksort? limit (some pivot) rights)

/-- How often a list of a length is parted at most: twice as often as it can be halved. -/
def partLimit (n : Nat) : Nat := 2 * n.log2

end Stencil.Sorting
