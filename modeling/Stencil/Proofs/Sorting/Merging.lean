import Stencil.Sorting.Merging
import Stencil.Proofs.Sorting.Inserting

/-!
# Merging sorts

When two sorted lists are merged, an item of the right one comes before items of the left one only
if it is less than all of them, so again only parted items change places. Merging from the backs is
merging from the fronts with the order turned round.

Two lists that meet are merged from both ends at once, and the two merges do not know of each other.
That they take no item twice is seen at the **cuts** they come to, the places in the two lists up to
which all has been taken: a cut tells what is in front of it from what is behind it, ties included,
so of two cuts one lies in front of the other in both lists (`Cut.le_of_add_le`).
-/

namespace Stencil.Sorting

variable {α : Type} {less : α → α → Bool} {P : α → Prop} {x y : α}
  {xs ys zs ws left right : List α} {i k i' k' : ℕ}

/-! ### From the fronts and from the backs -/

/-- An item on the left that is not greater than the first one on the right is a least one. -/
theorem least_of_le (h : Orders less P) (hleft : ∀ z ∈ x :: xs, P z) (hright : ∀ z ∈ y :: ys, P z)
    (hascending : Ascending less (x :: xs)) (hascending' : Ascending less (y :: ys))
    (hle : less y x = false) : ∀ z ∈ xs ++ y :: ys, less z x = false := by
  intro z hz
  have hx := hleft x List.mem_cons_self
  have hy := hright y List.mem_cons_self
  rcases List.mem_append.mp hz with hz | hz
  · exact (List.pairwise_cons.mp hascending).1 z hz
  · rcases List.mem_cons.mp hz with rfl | hz'
    · exact hle
    · exact h.trans hx hy (hright z hz) hle ((List.pairwise_cons.mp hascending').1 z hz')

/-- An item on the right that is less than the first one on the left is less than all of them. -/
theorem lt_of_lt_head (h : Orders less P) (hleft : ∀ z ∈ x :: xs, P z) (hy : P y)
    (hascending : Ascending less (x :: xs)) (hlt : less y x) : ∀ z ∈ x :: xs, less y z := by
  intro z hz
  rcases List.mem_cons.mp hz with rfl | hz'
  · exact hlt
  · exact h.lt_of_lt_of_le hy (hleft x List.mem_cons_self) (hleft z hz) hlt
      ((List.pairwise_cons.mp hascending).1 z hz')

/-- An item is taken from behind others than all of which it is less. -/
theorem Sorts.take_right (hrest : Sorts less (xs ++ ys) zs) (hlt : ∀ x ∈ xs, less y x)
    (hasymm : ∀ x ∈ xs, less x y = false) (hle : ∀ z ∈ ys, less z y = false) :
    Sorts less (xs ++ y :: ys) (y :: zs) := by
  refine .of_rearranged (Rearranged.past (fun x hx => .inl (hlt x hx)) ys).symm
    (hrest.cons fun z hz => ?_)
  rcases List.mem_append.mp hz with hz | hz
  · exact hasymm z hz
  · exact hle z hz

/-- Two lists are merged from their fronts. -/
theorem sorts_mergeFronts (h : Orders less P) (hleft : ∀ z ∈ left, P z) (hright : ∀ z ∈ right, P z)
    (hascending : Ascending less left) (hascending' : Ascending less right) :
    Sorts less (left ++ right) (left.merge right (inOrder less)) := by
  fun_induction List.merge left right (inOrder less) with
  | case1 right => exact .self hascending'
  | case2 left =>
    rw [List.append_nil]
    exact .self hascending
  | case3 x xs y ys hfirst ih =>
    have hle : less y x = false := Bool.not_eq_true' _ ▸ hfirst
    have hrest := ih (fun z hz => hleft z (List.mem_cons_of_mem x hz)) hright
      (List.pairwise_cons.mp hascending).2 hascending'
    exact hrest.cons (least_of_le h hleft hright hascending hascending' hle)
  | case4 x xs y ys hfirst ih =>
    have hlt : less y x := by simpa [inOrder] using hfirst
    have hy := hright y List.mem_cons_self
    have hbefore := lt_of_lt_head h hleft hy hascending hlt
    have hrest := ih hleft (fun z hz => hright z (List.mem_cons_of_mem y hz)) hascending
      (List.pairwise_cons.mp hascending').2
    exact hrest.take_right hbefore (fun z hz => h.asymm hy (hleft z hz) (hbefore z hz))
      (List.pairwise_cons.mp hascending').1

/-- Two sorted lists are merged, from wherever it may be. -/
theorem sorts_merge (h : Orders less P) (hleft : ∀ z ∈ left, P z) (hright : ∀ z ∈ right, P z)
    (hascending : Ascending less left) (hascending' : Ascending less right) :
    Sorts less (left ++ right) (merge less left right) := by
  rw [merge]
  split
  · exact sorts_mergeFronts h hleft hright hascending hascending'
  · refine .of_reverse ?_
    rw [List.reverse_append, List.reverse_reverse]
    exact sorts_mergeFronts h.flip (fun z hz => hright z (List.mem_reverse.mp hz))
      (fun z hz => hleft z (List.mem_reverse.mp hz)) hascending'.reverse hascending.reverse

/-! ### Cuts -/

/-- A place in two lists with `i` and `k` items in front of it: nothing in front of it on the left
is greater than what is behind it on the right, and everything in front of it on the right is less
than what is behind it on the left. -/
structure Cut (less : α → α → Bool) (left right : List α) (i k : ℕ) : Prop where
  left_le : ∀ a ∈ left.take i, ∀ b ∈ right.drop k, less b a = false
  right_lt : ∀ b ∈ right.take k, ∀ a ∈ left.drop i, less b a

namespace Cut

/-- **Of two cuts one lies in front of the other in both lists.** -/
theorem le_of_add_le (hcut : Cut less left right i k) (hcut' : Cut less left right i' k')
    (hi : i ≤ left.length) (hk : k ≤ right.length) (hi' : i' ≤ left.length)
    (hk' : k' ≤ right.length) (hsum : i + k ≤ i' + k') : i ≤ i' ∧ k ≤ k' := by
  -- else there are an item on the left and one on the right that the two cuts tell apart
  -- the other way round
  by_contra hnot
  rcases Nat.lt_or_ge i' i with hlt | hge
  · have hleft : i' < left.length := by omega
    have hright : k < right.length := by omega
    have hle := hcut.left_le left[i'] (List.mem_take_iff_getElem.mpr ⟨i', by omega, rfl⟩)
      right[k] (List.mem_drop_iff_getElem.mpr ⟨0, by omega, rfl⟩)
    have hless := hcut'.right_lt right[k] (List.mem_take_iff_getElem.mpr ⟨k, by omega, rfl⟩)
      left[i'] (List.mem_drop_iff_getElem.mpr ⟨0, by omega, rfl⟩)
    exact Bool.false_ne_true (hle.symm.trans hless)
  · have hleft : i < left.length := by omega
    have hright : k' < right.length := by omega
    have hless := hcut.right_lt right[k'] (List.mem_take_iff_getElem.mpr ⟨k', by omega, rfl⟩)
      left[i] (List.mem_drop_iff_getElem.mpr ⟨0, by omega, rfl⟩)
    have hle := hcut'.left_le left[i] (List.mem_take_iff_getElem.mpr ⟨i, by omega, rfl⟩)
      right[k'] (List.mem_drop_iff_getElem.mpr ⟨0, by omega, rfl⟩)
    exact Bool.false_ne_true (hle.symm.trans hless)

/-- One more item is taken from the left. -/
theorem cons_left (hcut : Cut less xs right i k) (hle : ∀ b ∈ right, less b x = false) :
    Cut less (x :: xs) right (i + 1) k where
  left_le a ha b hb := by
    rcases List.mem_cons.mp ha with rfl | ha
    · exact hle b (List.mem_of_mem_drop hb)
    · exact hcut.left_le a ha b hb
  right_lt := hcut.right_lt

/-- One more item is taken from the right. -/
theorem cons_right (hcut : Cut less left ys i k) (hlt : ∀ a ∈ left, less y a) :
    Cut less left (y :: ys) i (k + 1) where
  left_le := hcut.left_le
  right_lt b hb a ha := by
    rcases List.mem_cons.mp hb with rfl | hb
    · exact hlt a (List.mem_of_mem_drop ha)
    · exact hcut.right_lt b hb a ha

/-- A cut behind another one cuts what is behind that one. -/
theorem drop (hcut : Cut less left right i' k') (hi : i ≤ i') (hk : k ≤ k') :
    Cut less (left.drop i) (right.drop k) (i' - i) (k' - k) where
  left_le a ha b hb := by
    rw [← List.drop_take] at ha
    rw [List.drop_drop, Nat.add_sub_cancel' hk] at hb
    exact hcut.left_le a (List.mem_of_mem_drop ha) b hb
  right_lt b hb a ha := by
    rw [← List.drop_take] at hb
    rw [List.drop_drop, Nat.add_sub_cancel' hi] at ha
    exact hcut.right_lt b (List.mem_of_mem_drop hb) a ha

/-- A cut counted from the backs. -/
theorem of_reverse (hcut : Cut (fun a b => less b a) right.reverse left.reverse k i) :
    Cut less left right (left.length - i) (right.length - k) where
  left_le a ha b hb := hcut.left_le b (by rwa [List.take_reverse, List.mem_reverse]) a
    (by rwa [List.drop_reverse, List.mem_reverse])
  right_lt b hb a ha := hcut.right_lt a (by rwa [List.take_reverse, List.mem_reverse]) b
    (by rwa [List.drop_reverse, List.mem_reverse])

/-- What is in front of a cut and what is behind it are sorted each for itself. -/
theorem sorts (hcut : Cut less left right i k) (h : Orders less P) (hleft : ∀ z ∈ left, P z)
    (hright : ∀ z ∈ right, P z) (hascending : Ascending less left)
    (hascending' : Ascending less right) (hfront : Sorts less (left.take i ++ right.take k) zs)
    (hback : Sorts less (left.drop i ++ right.drop k) ws) :
    Sorts less (left ++ right) (zs ++ ws) := by
  have hswap : Rearranged less (left ++ right)
      ((left.take i ++ right.take k) ++ (left.drop i ++ right.drop k)) := by
    have hmiddle : Rearranged less (left.drop i ++ right.take k) (right.take k ++ left.drop i) :=
      .exchange fun a ha b hb => .inr (hcut.right_lt b hb a ha)
    have hparts := (hmiddle.append_left (left.take i)).append_right (right.drop k)
    simp only [List.append_assoc, List.take_append_drop k] at hparts ⊢
    rwa [← List.append_assoc, List.take_append_drop] at hparts
  refine .of_rearranged hswap (hfront.append hback fun a ha b hb => ?_)
  rw [← List.take_append_drop i left, Ascending, List.pairwise_append] at hascending
  rw [← List.take_append_drop k right, Ascending, List.pairwise_append] at hascending'
  rcases List.mem_append.mp ha with ha | ha <;> rcases List.mem_append.mp hb with hb | hb
  · exact hascending.2.2 a ha b hb
  · exact hcut.left_le a ha b hb
  · exact h.asymm (hright a (List.mem_of_mem_take ha)) (hleft b (List.mem_of_mem_drop hb))
      (hcut.right_lt a ha b hb)
  · exact hascending'.2.2 a ha b hb

end Cut

/-! ### Meeting -/

/-- The first steps of a merge come to a cut, and what is taken is what lies in front of it. -/
theorem mergeSteps_cut (h : Orders less P) (n : ℕ) (hleft : ∀ z ∈ left, P z)
    (hright : ∀ z ∈ right, P z) (hascending : Ascending less left)
    (hascending' : Ascending less right) :
    ∃ taken i k, mergeSteps (inOrder less) n left right = (taken, left.drop i, right.drop k) ∧
      Cut less left right i k ∧ Sorts less (left.take i ++ right.take k) taken ∧
      i ≤ left.length ∧ k ≤ right.length ∧
      (n ≤ left.length → n ≤ right.length → i + k = n) := by
  fun_induction mergeSteps (inOrder less) n left right with
  | case1 n x xs y ys hfirst taken rest hsteps ih =>
    have hle : less y x = false := Bool.not_eq_true' _ ▸ hfirst
    have hleast := least_of_le h hleft hright hascending hascending' hle
    obtain ⟨_, i, k, heq, hcut, hsorts, hi, hk, hsum⟩ :=
      ih (fun z hz => hleft z (List.mem_cons_of_mem x hz)) hright
        (List.pairwise_cons.mp hascending).2 hascending'
    obtain ⟨rfl, rfl⟩ := Prod.mk.inj (hsteps.symm.trans heq)
    refine ⟨x :: taken, i + 1, k, rfl, hcut.cons_left fun b hb =>
      hleast b (List.mem_append_right xs hb), hsorts.cons fun z hz => hleast z ?_,
      Nat.succ_le_succ hi, hk, fun hn hn' => ?_⟩
    · exact List.mem_append.mpr ((List.mem_append.mp hz).imp List.mem_of_mem_take
        List.mem_of_mem_take)
    · have hcount := hsum (Nat.le_of_succ_le_succ hn) (Nat.le_of_succ_le hn')
      omega
  | case2 n x xs y ys hfirst taken rest hsteps ih =>
    have hlt : less y x := by simpa [inOrder] using hfirst
    have hy := hright y List.mem_cons_self
    have hbefore := lt_of_lt_head h hleft hy hascending hlt
    have hbehind := (List.pairwise_cons.mp hascending').1
    obtain ⟨_, i, k, heq, hcut, hsorts, hi, hk, hsum⟩ :=
      ih hleft (fun z hz => hright z (List.mem_cons_of_mem y hz)) hascending
        (List.pairwise_cons.mp hascending').2
    obtain ⟨rfl, rfl⟩ := Prod.mk.inj (hsteps.symm.trans heq)
    refine ⟨y :: taken, i, k + 1, rfl, hcut.cons_right hbefore, hsorts.take_right
      (fun z hz => hbefore z (List.mem_of_mem_take hz))
      (fun z hz => h.asymm hy (hleft z (List.mem_of_mem_take hz))
        (hbefore z (List.mem_of_mem_take hz)))
      (fun z hz => hbehind z (List.mem_of_mem_take hz)), hi, Nat.succ_le_succ hk,
      fun hn hn' => ?_⟩
    have hcount := hsum (Nat.le_of_succ_le hn) (Nat.le_of_succ_le_succ hn')
    omega
  | case3 n left right hdone =>
    refine ⟨[], 0, 0, rfl, ⟨fun a ha => absurd ha List.not_mem_nil,
      fun b hb => absurd hb List.not_mem_nil⟩, .self .nil, Nat.zero_le _, Nat.zero_le _,
      fun hn hn' => ?_⟩
    by_contra hne
    obtain ⟨n, rfl⟩ := Nat.exists_eq_succ_of_ne_zero (Ne.symm hne)
    obtain ⟨x, xs, rfl⟩ := List.exists_cons_of_length_pos (Nat.zero_lt_of_lt hn)
    obtain ⟨y, ys, rfl⟩ := List.exists_cons_of_length_pos (Nat.zero_lt_of_lt hn')
    exact hdone n x xs y ys rfl rfl rfl

theorem ascending_of_length_le_one (h : xs.length ≤ 1) : Ascending less xs := by
  rcases xs with _ | ⟨x, _ | ⟨y, ys⟩⟩
  · exact .nil
  · exact List.pairwise_singleton _ x
  · simp only [List.length_cons] at h
    omega

/-- **Two sorted lists of nearly the same length meet**, and no item is taken twice. -/
theorem sorts_meet (h : Orders less P) (hleft : ∀ z ∈ left, P z) (hright : ∀ z ∈ right, P z)
    (hascending : Ascending less left) (hascending' : Ascending less right)
    (hlow : left.length ≤ right.length) (hhigh : right.length ≤ left.length + 1) :
    ∃ zs, meet less left right = some zs ∧ Sorts less (left ++ right) zs := by
  obtain ⟨front, i, k, hfronts, hcut, hfront, hi, hk, hsum⟩ :=
    mergeSteps_cut h left.length hleft hright hascending hascending'
  obtain ⟨back, k', i', hbacks, hcut', hback, hk', hi', hsum'⟩ :=
    mergeSteps_cut h.flip left.length (fun z hz => hright z (List.mem_reverse.mp hz))
      (fun z hz => hleft z (List.mem_reverse.mp hz)) hascending'.reverse hascending.reverse
  simp only [List.length_reverse] at hk' hi' hsum'
  replace hsum := hsum (Nat.le_refl _) hlow
  replace hsum' := hsum' hlow (Nat.le_refl _)
  replace hcut' := hcut'.of_reverse
  obtain ⟨hile, hkle⟩ := hcut.le_of_add_le hcut' hi hk (Nat.sub_le _ _) (Nat.sub_le _ _)
    (by omega)
  have hmeet : meet less left right = some (front ++
      ((left.drop i).take (left.length - i' - i) ++ (right.drop k).take (right.length - k' - k)) ++
      back.reverse) := by
    have hbacks' : mergeSteps (fun b a => inOrder less a b) left.length right.reverse left.reverse =
        (back, right.reverse.drop k', left.reverse.drop i') := hbacks
    have hcount : left.length - i - (left.length - (left.length - i')) = left.length - i' - i := by
      omega
    have hcount' : right.length - k - (right.length - (right.length - k')) =
        right.length - k' - k := by omega
    rw [meet]
    simp only [hfronts, hbacks', List.length_drop, List.length_reverse, hcount, hcount']
    rw [if_pos (by rw [Bool.and_eq_true, decide_eq_true_iff, decide_eq_true_iff]; omega)]
    simp only [List.append_assoc]
  refine ⟨_, hmeet, ?_⟩
  rw [List.append_assoc]
  have hPleft : ∀ z ∈ left.drop i, P z := fun z hz => hleft z (List.mem_of_mem_drop hz)
  have hPright : ∀ z ∈ right.drop k, P z := fun z hz => hright z (List.mem_of_mem_drop hz)
  -- between the two cuts one item is left at most
  have hmiddle : ((left.drop i).take (left.length - i' - i) ++
      (right.drop k).take (right.length - k' - k)).length ≤ 1 := by
    simp only [List.length_append, List.length_take, List.length_drop]
    omega
  refine hcut.sorts h hleft hright hascending hascending' hfront
    ((hcut'.drop hile hkle).sorts h hPleft hPright (List.Pairwise.drop hascending)
      (List.Pairwise.drop hascending') (.self (ascending_of_length_le_one hmiddle)) ?_)
  refine .of_reverse ?_
  rw [List.drop_drop, List.drop_drop, Nat.add_sub_cancel' hile, Nat.add_sub_cancel' hkle,
    List.reverse_append, List.reverse_reverse, ← List.take_reverse, ← List.take_reverse]
  exact hback

/-- A block is sorted by its halves. -/
theorem sorts_sortBlock (h : Orders less P) (hxs : ∀ x ∈ xs, P x) :
    ∃ ys, sortBlock? less xs = some ys ∧ Sorts less xs ys := by
  have hhalf : ∀ half : List α, (∀ x ∈ half, P x) → Sorts less half
      ((if 8 ≤ xs.length then insertBehindFour less else insertionSort less) half) := by
    intro half hP
    split
    · exact sorts_insertBehindFour h hP
    · exact sorts_insertionSort h hP
  rw [sortBlock?]
  generalize (if 8 ≤ xs.length then insertBehindFour less else insertionSort less) = sortHalf
    at hhalf
  have hfirst := hhalf (xs.take (xs.length / 2)) fun x hx => hxs x (List.mem_of_mem_take hx)
  have hsecond := hhalf (xs.drop (xs.length / 2)) fun x hx => hxs x (List.mem_of_mem_drop hx)
  have hlength := hfirst.rearranged.perm.length_eq
  have hlength' := hsecond.rearranged.perm.length_eq
  rw [List.length_take] at hlength
  rw [List.length_drop] at hlength'
  obtain ⟨ys, hmeet, hsorts⟩ := sorts_meet h
    (fun x hx => hxs x (List.mem_of_mem_take (hfirst.mem_iff.mpr hx)))
    (fun x hx => hxs x (List.mem_of_mem_drop (hsecond.mem_iff.mpr hx)))
    hfirst.ascending hsecond.ascending (by omega) (by omega)
  have hhalves := hfirst.rearranged.append hsecond.rearranged
  rw [List.take_append_drop] at hhalves
  exact ⟨ys, hmeet, .of_rearranged hhalves hsorts⟩

end Stencil.Sorting
