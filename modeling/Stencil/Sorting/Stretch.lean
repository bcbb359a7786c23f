import Stencil.Sorting.Merging

/-!
# Stretches and their merge tree

A long list is seen as a sequence of **stretches**. Where the list starts with a **run** that
is long enough, the run is a sorted stretch; else a stretch of a fixed length is cut off.
Two neighbours are **joined** into one stretch: if one of them is sorted, they are merged, and
else they stay one behind the other, to be sorted together later.

The stretches are joined as in *powersort*. Halving the whole list again and again gives a
tree, and two neighbours belong to the node at which their middles part. The **height** of
that node says when they are joined: lower nodes come first.
-/

namespace Stencil.Sorting

variable {α : Type} (less : α → α → Bool)

/-! ### Runs -/

/-- Goes on with a run whose last item is `x`, with those before it in `before`, from the
last one back. Gives the run, from its last item back, and what follows it. -/
def runFrom (goesOn : α → α → Bool) (x : α) (before : List α) : List α → List α × List α
  | y :: ys => if goesOn x y then runFrom goesOn y (x :: before) ys else (x :: before, y :: ys)
  | [] => (x :: before, [])

theorem length_runFrom_le (goesOn : α → α → Bool) (x : α) (before items : List α) :
    (runFrom goesOn x before items).2.length ≤ items.length := by
  induction items generalizing x before with
  | nil => simp [runFrom]
  | cons y ys ih =>
    rw [runFrom]
    split
    · exact Nat.le_succ_of_le (ih y (x :: before))
    · exact Nat.le_refl _

/-- The run that a list starts with, in ascending order, and what follows it. A run never
descends, or it descends at every step. -/
def takeRun (x : α) : List α → List α × List α
  | [] => ([x], [])
  | y :: ys =>
    if less y x then runFrom (fun a b => less b a) y [x] ys
    else
      let (run, rest) := runFrom (inOrder less) y [x] ys
      (run.reverse, rest)

theorem length_takeRun_le (x : α) (items : List α) :
    (takeRun less x items).2.length ≤ items.length := by
  cases items with
  | nil => simp [takeRun]
  | cons y ys =>
    rw [takeRun]
    split <;> exact Nat.le_succ_of_le (length_runFrom_le _ y [x] ys)

/-- The length from which a run in a list of length `n` is kept: half of a short list, 64 in
a longer one, and about the square root of `n` in a very long one. -/
def keptLength (n : Nat) : Nat :=
  if n ≤ 4096 then min (n - n / 2) 64
  else
    let shift := (n.log2 + 1) / 2
    ((1 <<< shift) + (n >>> shift)) / 2

/-! ### Stretches -/

/-- Some neighbouring items, and whether they are sorted. -/
structure Stretch (α : Type) where
  items : List α
  sorted : Bool

/-- Cuts a list into stretches: runs of at least the length `kept`, and else pieces of at
most the length `piece`, each made a stretch by `make`. -/
def stretches (kept piece : Nat) (make : List α → Option (Stretch α)) :
    List α → Option (List (Stretch α))
  | [] => some []
  | x :: xs =>
    if kept ≤ (takeRun less x xs).1.length then do
      return ⟨(takeRun less x xs).1, true⟩ :: (← stretches kept piece make (takeRun less x xs).2)
    else do
      let stretch ← make (x :: xs.take (piece - 1))
      return stretch :: (← stretches kept piece make (xs.drop (piece - 1)))
termination_by items => items.length
decreasing_by
  · have := length_takeRun_le less x xs
    simp only [List.length_cons]
    omega
  · simp only [List.length_drop, List.length_cons]
    omega

section Joining

variable (sortUnsorted : List α → Option (List α))

/-- The items of a stretch in ascending order. -/
def Stretch.settle (s : Stretch α) : Option (List α) :=
  if s.sorted then some s.items else sortUnsorted s.items

/-- Joins two neighbours. -/
def join (left right : Stretch α) : Option (Stretch α) :=
  if left.sorted || right.sorted then do
    return ⟨merge less (← left.settle sortUnsorted) (← right.settle sortUnsorted), true⟩
  else some ⟨left.items ++ right.items, false⟩

/-- The height of the node between two neighbours, from `start` to `mid` and from there to
`stop`, in a list of length `n`: the highest bit in which their middles differ, the whole
list being scaled to a power of two. -/
def nodeHeight (n start mid stop : Nat) : Nat :=
  let scale := ((1 <<< 62) + n - 1) / n
  ((scale * (start + mid)) ^^^ (scale * (mid + stop))).log2

/-- Stretches that wait for their right neighbours, with the heights of the nodes between
them; the last one comes first. -/
abbrev Waiting (α : Type) := List (Stretch α × Nat)

/-- Joins a stretch with those that wait at nodes no higher than `height`. -/
def joinUpTo (height : Nat) : Waiting α → Stretch α → Option (Stretch α × Waiting α)
  | [], last => some (last, [])
  | (left, h) :: waiting, last =>
    if h ≤ height then do joinUpTo height waiting (← join less sortUnsorted left last)
    else some (last, (left, h) :: waiting)

/-- Joins a stretch with all that wait. -/
def joinWaiting : Waiting α → Stretch α → Option (Stretch α)
  | [], last => some last
  | (left, _) :: waiting, last => do joinWaiting waiting (← join less sortUnsorted left last)

/-- Joins what waits, the stretch that starts at `start`, and those that follow it, in a list
of length `n`. -/
def joinAll (n : Nat) : Waiting α → (start : Nat) → Stretch α → List (Stretch α) →
    Option (Stretch α)
  | waiting, _, last, [] => joinWaiting less sortUnsorted waiting last
  | waiting, start, last, next :: rest => do
    let mid := start + last.items.length
    let height := nodeHeight n start mid (mid + next.items.length)
    let (joined, waiting) ← joinUpTo less sortUnsorted height waiting last
    joinAll n ((joined, height) :: waiting) mid next rest

/-- The items of the stretches of a list of length `n` in ascending order. -/
def sortStretches? (n : Nat) : List (Stretch α) → Option (List α)
  | [] => some []
  | first :: rest => do
    let joined ← joinAll less sortUnsorted n [] 0 first rest
    joined.settle sortUnsorted

end Joining

/-- Sorts a list whose pieces between long runs are sorted as blocks. -/
def sortByBlocks? (items : List α) : Option (List α) := do
  let make (block : List α) : Option (Stretch α) := do
    return ⟨← sortBlock? less block, true⟩
  sortStretches? less (sortBlock? less) items.length
    (← stretches less (keptLength items.length) blockLength make items)

end Stencil.Sorting
