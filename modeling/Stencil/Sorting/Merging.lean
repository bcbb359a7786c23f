import Stencil.Sorting.Insertion

/-!
# Merging and meeting

Two sorted lists are **merged** from their fronts or from their backs. Both ways give the
same list wherever the test is an order.

Two lists of nearly the same length may also **meet**: half of the result is merged from
the fronts and the other half from the backs. If the test is no order, the two ends may
claim the same item, and then there is no result. This is how a short **block** of items is
sorted.
-/

namespace Stencil.Sorting

variable {α : Type} (less : α → α → Bool)

/-- Whether an item may stay in front of another one. -/
def inOrder (a b : α) : Bool := !less b a

/-- Merges two sorted lists: from their fronts, or from their backs if the left one is the
longer. -/
def merge (left right : List α) : List α :=
  if left.length ≤ right.length then left.merge right (inOrder less)
  else (right.reverse.merge left.reverse fun b a => inOrder less a b).reverse

/-- The first `n` steps of a merge, as long as both lists have items: what is taken, in its
order, and what is left of the lists. -/
def mergeSteps (first : α → α → Bool) : (n : Nat) → (xs ys : List α) → List α × List α × List α
  | n + 1, x :: xs, y :: ys =>
    if first x y then
      let (taken, rest) := mergeSteps first n xs (y :: ys)
      (x :: taken, rest)
    else
      let (taken, rest) := mergeSteps first n (x :: xs) ys
      (y :: taken, rest)
  | _, xs, ys => ([], xs, ys)

/-- Merges two sorted lists, the left one no longer than the right one, from both ends at
once. An item between the ends stays in the middle; none if an item is taken twice. -/
def meet (left right : List α) : Option (List α) :=
  let half := left.length
  let (front, lefts, rights) := mergeSteps (inOrder less) half left right
  let (back, rights', lefts') :=
    mergeSteps (fun b a => inOrder less a b) half right.reverse left.reverse
  let leftsBehind := left.length - lefts'.length
  let rightsBehind := right.length - rights'.length
  if leftsBehind ≤ lefts.length && rightsBehind ≤ rights.length then
    some (front ++ lefts.take (lefts.length - leftsBehind) ++
      rights.take (rights.length - rightsBehind) ++ back.reverse)
  else none

/-- The greatest length of a block. -/
def blockLength : Nat := 32

/-- Sorts a block: its halves by inserting, then they meet. In a block of eight items or
more the first four of each half are sorted together. -/
def sortBlock? (items : List α) : Option (List α) :=
  let half := items.length / 2
  let sortHalf := if 8 ≤ items.length then insertBehindFour less else insertionSort less
  meet less (sortHalf (items.take half)) (sortHalf (items.drop half))

end Stencil.Sorting
