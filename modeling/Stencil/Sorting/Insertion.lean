/-!
# Sorting by inserting

Lists are sorted by a test `less`, and where neither of two items is less than the other,
they keep their order. Nothing else is assumed about the test.

To sort by **inserting** is to take the items one after the other and to put each behind all
items that it is not less than, among what is sorted already. What is sorted is held from
its greatest item downwards, so that each item looks for its place from the greatest one on.
-/

namespace Stencil.Sorting

variable {α : Type} (less : α → α → Bool)

/-- Inserts an item into a list that is sorted downwards. -/
def insertDescending (x : α) : List α → List α
  | [] => [x]
  | y :: ys => if less x y then y :: insertDescending x ys else x :: y :: ys

/-- Inserts items in their order into a list that is sorted downwards. -/
def insertAll (sorted : List α) : List α → List α
  | [] => sorted
  | x :: xs => insertAll (insertDescending less x sorted) xs

/-- The items in ascending order, each inserted in its turn. -/
def insertionSort (items : List α) : List α :=
  (insertAll less [] items).reverse

/-- Sorts four items by five comparisons. Two pairs are put in order, then the lesser of
their firsts is the least item and the greater of their seconds the greatest one. The two
that are left keep their order if they can. -/
def sortFour (a b c d : α) : List α :=
  let (low, high) := if less b a then (b, a) else (a, b)
  let (low', high') := if less d c then (d, c) else (c, d)
  let lowSwaps := less low' low
  let highSwaps := less high' high
  let least := if lowSwaps then low' else low
  let greatest := if highSwaps then high else high'
  let left := if lowSwaps then low else if highSwaps then low' else high
  let right := if highSwaps then high' else if lowSwaps then high else low'
  if less right left then [least, right, left, greatest] else [least, left, right, greatest]

/-- The items in ascending order: the first four of them sorted together, and the others
inserted each in its turn. -/
def insertBehindFour : List α → List α
  | a :: b :: c :: d :: rest => (insertAll less (sortFour less a b c d).reverse rest).reverse
  | items => insertionSort less items

end Stencil.Sorting
