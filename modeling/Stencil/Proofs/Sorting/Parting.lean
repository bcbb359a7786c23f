import Stencil.Sorting.Basic
import Stencil.Proofs.Sorting.Stretching

/-!
# Stable quicksort sorts, and so does the whole

Parting a list draws items to the front past others that they are less than or at least parted from,
with the pivot between them. Whichever item is the pivot, that sorts; so nothing has to be known of
how it is chosen.

Where nothing is less than the pivot, what is not greater is not sorted again, though it lies on the
same side of it as the rest. That may be told from the **bound** as well, an item that none is less
than: if the pivot is no greater than it, nothing is less than the pivot either
(`sorts_equalFirst`).
-/

namespace Stencil.Sorting

variable {α : Type} {less : α → α → Bool} {P : α → Prop} {pivot : α} {xs ys : List α}

/-- A list is parted by a test, and what passes the test comes first. -/
theorem sorts_parts (p : α → Bool) {front back : List α}
    (hless : ∀ x ∈ xs, ∀ y ∈ xs, p x → p y = false → less x y)
    (hasymm : ∀ x ∈ xs, ∀ y ∈ xs, less x y → less y x = false)
    (hfront : Sorts less (xs.filter p) front)
    (hback : Sorts less (xs.filter fun x => !p x) back) : Sorts less xs (front ++ back) := by
  refine .of_rearranged (.filter p fun x hx y hy hxp hyp => .inr (hless y hy x hx hyp hxp))
    (hfront.append hback fun x hx z hz => ?_)
  obtain ⟨hx, hxp⟩ := List.mem_filter.mp hx
  obtain ⟨hz, hzp⟩ := List.mem_filter.mp hz
  exact hasymm x hx z hz (hless x hx z hz hxp (by simpa using hzp))

/-- Where nothing is less than the pivot, what is not greater is in its place. -/
theorem sorts_equalFirst (h : Orders less P) (hpivot : P pivot) (hxs : ∀ x ∈ xs, P x)
    (hleast : ∀ x ∈ xs, less x pivot = false) (hrest : Sorts less (xs.filter (less pivot)) ys) :
    Sorts less xs (xs.filter (inOrder less · pivot) ++ ys) := by
  refine sorts_parts (inOrder less · pivot) (fun x hx y hy hxp hyp => ?_)
    (fun x hx y hy => h.asymm (hxs x hx) (hxs y hy)) (.self ?_) ?_
  · exact h.lt_of_le_of_lt (hxs x hx) hpivot (hxs y hy) (by simpa [inOrder] using hxp)
      (by simpa [inOrder] using hyp)
  · refine List.pairwise_of_forall_mem_list fun x hx y hy => ?_
    obtain ⟨hx, hxp⟩ := List.mem_filter.mp hx
    obtain ⟨hy, -⟩ := List.mem_filter.mp hy
    exact h.trans (hxs x hx) hpivot (hxs y hy) (by simpa [inOrder] using hxp) (hleast y hy)
  · simpa only [inOrder, Bool.not_not] using hrest

/-- What is less than the pivot comes before all else. -/
theorem sorts_lessFirst (h : Orders less P) (hpivot : P pivot) (hxs : ∀ x ∈ xs, P x)
    {lefts rights : List α} (hlefts : Sorts less (xs.filter (less · pivot)) lefts)
    (hrights : Sorts less (xs.filter (inOrder less pivot)) rights) :
    Sorts less xs (lefts ++ rights) :=
  sorts_parts (less · pivot)
    (fun x hx y hy hxp hyp => h.lt_of_lt_of_le (hxs x hx) hpivot (hxs y hy) hxp hyp)
    (fun x hx y hy => h.asymm (hxs x hx) (hxs y hy)) hlefts hrights

/-- What passes a test in front of the pivot and behind it, if the pivot does not. -/
theorem filter_append_of_neg {p : α → Bool} (before after : List α) (hp : p pivot = false) :
    before.filter p ++ after.filter p = (before ++ pivot :: after).filter p := by
  rw [List.filter_append, List.filter_cons_of_neg (Bool.eq_false_iff.mp hp)]

/-- What passes a test in front of the pivot and behind it, with the pivot. -/
theorem filter_append_of_pos {p : α → Bool} (before after : List α) (hp : p pivot) :
    before.filter p ++ pivot :: after.filter p = (before ++ pivot :: after).filter p := by
  rw [List.filter_append, List.filter_cons_of_pos hp]

/-- **Stable quicksort sorts.** -/
theorem sorts_quicksort (h : Orders less P) (limit : ℕ) (bound : Option α)
    (hxs : ∀ x ∈ xs, P x) (hbound : ∀ b ∈ bound, P b ∧ ∀ x ∈ xs, less x b = false) :
    ∃ ys, quicksort? less limit bound xs = some ys ∧ Sorts less xs ys := by
  fun_induction quicksort? less limit bound xs with
  | case1 bound xs hshort => exact sorts_sortBlock h hxs
  | case2 bound xs hlong => exact sorts_sortByBlocks h hxs
  | case3 limit bound xs hshort => exact sorts_sortBlock h hxs
  | case4 limit bound xs hlong position hnone => exact sorts_sortByBlocks h hxs
  | case5 limit bound xs hlong position before pivot after hdrop lefts hleast equal rights ih =>
    have hsplit : before ++ pivot :: after = xs := by
      rw [← hdrop, List.take_append_drop]
    have hpivot : P pivot := hxs pivot (hsplit ▸ List.mem_append_right _ List.mem_cons_self)
    have hself := h.irrefl hpivot
    have hself' : inOrder less pivot pivot := by rw [inOrder, hself]; rfl
    have hlefts : lefts = xs.filter (less · pivot) :=
      hsplit ▸ filter_append_of_neg before after hself
    have hequal : equal = xs.filter (inOrder less · pivot) :=
      hsplit ▸ filter_append_of_pos before after hself'
    have hrights : rights = xs.filter (less pivot) :=
      hsplit ▸ filter_append_of_neg before after hself
    have hnone : ∀ x ∈ xs, less x pivot = false := by
      intro x hx
      rcases Bool.or_eq_true_iff.mp hleast with hempty | hbelow
      · rw [List.isEmpty_iff, hlefts, List.filter_eq_nil_iff] at hempty
        exact Bool.eq_false_iff.mpr (hempty x hx)
      · obtain ⟨b, hb, hle⟩ := (Option.any_eq_true _ _).mp hbelow
        obtain ⟨hPb, hbound⟩ := hbound b hb
        exact h.trans hpivot hPb (hxs x hx) (by simpa [inOrder] using hle) (hbound x hx)
    obtain ⟨ys, hys, hsorts⟩ :=
      ih (fun x hx => hxs x (List.mem_of_mem_filter (hrights ▸ hx)))
        (fun b hb => absurd hb (Option.not_mem_none b))
    rw [hys, hequal]
    rw [hrights] at hsorts
    exact ⟨_, rfl, sorts_equalFirst h hpivot hxs hnone hsorts⟩
  | case6 limit bound xs hlong position before pivot after hdrop lefts hsome rights ih ih' =>
    have hsplit : before ++ pivot :: after = xs := by
      rw [← hdrop, List.take_append_drop]
    have hpivot : P pivot := hxs pivot (hsplit ▸ List.mem_append_right _ List.mem_cons_self)
    have hself := h.irrefl hpivot
    have hself' : inOrder less pivot pivot := by rw [inOrder, hself]; rfl
    have hlefts : lefts = xs.filter (less · pivot) :=
      hsplit ▸ filter_append_of_neg before after hself
    have hrights : rights = xs.filter (inOrder less pivot) :=
      hsplit ▸ filter_append_of_pos before after hself'
    obtain ⟨ys, hys, hsorts⟩ :=
      ih (fun x hx => hxs x (List.mem_of_mem_filter (hlefts ▸ hx)))
        (fun b hb => ⟨(hbound b hb).1, fun x hx =>
          (hbound b hb).2 x (List.mem_of_mem_filter (hlefts ▸ hx))⟩)
    obtain ⟨zs, hzs, hsorts'⟩ :=
      ih' (fun x hx => hxs x (List.mem_of_mem_filter (hrights ▸ hx))) (fun b hb => by
        obtain rfl := Option.some_inj.mp hb
        refine ⟨hpivot, fun x hx => ?_⟩
        have hpassed := (List.mem_filter.mp (hrights ▸ hx)).2
        simpa [inOrder] using hpassed)
    rw [hys, hzs]
    rw [hlefts] at hsorts
    rw [hrights] at hsorts'
    exact ⟨_, rfl, sorts_lessFirst h hpivot hxs hsorts hsorts'⟩

/-- A list is sorted whose pieces between long runs are sorted together. -/
theorem sorts_sortByParting (h : Orders less P) (hxs : ∀ x ∈ xs, P x) :
    ∃ ys, sortByParting? less xs = some ys ∧ Sorts less xs ys := by
  have hmake : ∀ piece : List α, (∀ x ∈ piece, P x) →
      ∃ s, some (Stretch.mk piece false) = some s ∧ s.Sound less P ∧
        Rearranged less piece s.items := fun piece hpiece =>
    ⟨_, rfl, ⟨hpiece, fun hsorted => absurd hsorted Bool.false_ne_true⟩, .refl piece⟩
  have hsort : ∀ ys, (∀ x ∈ ys, P x) →
      ∃ zs, quicksort? less (partLimit ys.length) none ys = some zs ∧ Sorts less ys zs :=
    fun ys hys => sorts_quicksort h _ none hys fun b hb => absurd hb (Option.not_mem_none b)
  obtain ⟨ss, hss, hsound, hitems⟩ :=
    stretches_sound h (keptLength xs.length) (keptLength xs.length) hmake hxs
  obtain ⟨ys, hys, hsorts⟩ := sorts_sortStretches h hsort xs.length hsound
  rw [sortByParting?, hss]
  exact ⟨ys, hys, .of_rearranged hitems hsorts⟩

/-- **Sorting sorts**, in whichever way. -/
theorem sorts_sort (h : Orders less P) (hxs : ∀ x ∈ xs, P x) :
    ∃ ys, sort? less xs = some ys ∧ Sorts less xs ys := by
  rw [sort?]
  split
  · exact ⟨_, rfl, sorts_insertionSort h hxs⟩
  split
  · exact sorts_sortByBlocks h hxs
  · exact sorts_sortByParting h hxs

end Stencil.Sorting
