import Stencil.Sorting.Quicksort

/-!
# Stable sorting

A list is sorted by a test `less` in a way that fits its length: a short one by inserting, a
longer one by blocks, and a long one by stable quicksort. Runs that the list has already are
kept. Items of which neither is less than the other keep their order.

Every way gives the same list if the test is an order. If it is none, `sort?` may find that
out, and then there is no result.
-/

namespace Stencil.Sorting

variable {α : Type} (less : α → α → Bool)

/-- Sorts a list whose pieces between long runs are sorted together by quicksort. -/
def sortByParting? (items : List α) : Option (List α) := do
  let sortUnsorted (items : List α) := quicksort? less (partLimit items.length) none items
  let kept := keptLength items.length
  sortStretches? less sortUnsorted items.length
    (← stretches less kept kept (fun piece => some ⟨piece, false⟩) items)

/-- The items in ascending order; none if they turn out to have no common order. -/
def sort? (items : List α) : Option (List α) :=
  if items.length ≤ 20 then some (insertionSort less items)
  else if items.length ≤ 2 * blockLength then sortByBlocks? less items
  else sortByParting? less items

end Stencil.Sorting
