import Stencil.Sorting.Insertion
import Stencil.Proofs.Sorting.Rearranging

/-!
# Inserting sorts

What is sorted already is held from its greatest item downwards, so an item that is inserted goes
past items that it is less than, each of which it is compared with. So nothing has to be known of
the order for ties to be left as they are; that the list stays sorted is all that needs one.

Of four items that are sorted together two pairs are put in order first. The second pair then gives
up its lesser item to the front and the first pair its greater one to the back, wherever these two
are less than what they pass.
-/

namespace Stencil.Sorting

variable {α : Type} {less : α → α → Bool} {P : α → Prop} {x : α} {xs sorted : List α}

/-! ### One item after the other -/

theorem rearranged_insertDescending (less : α → α → Bool) (x : α) (sorted : List α) :
    Rearranged less (x :: sorted) (insertDescending less x sorted) := by
  induction sorted with
  | nil => exact .refl [x]
  | cons y ys ih =>
    rw [insertDescending]
    split
    next hlt => exact (Rearranged.swap ys (.inl hlt)).trans (ih.cons y)
    next => exact .refl (x :: y :: ys)

/-- A list that is sorted downwards stays so. -/
theorem ascending_insertDescending (h : Orders less P) (hx : P x) (hsorted : ∀ y ∈ sorted, P y)
    (hascending : Ascending less sorted.reverse) :
    Ascending less (insertDescending less x sorted).reverse := by
  rw [Ascending, List.pairwise_reverse] at hascending ⊢
  induction sorted with
  | nil => exact List.pairwise_singleton _ x
  | cons y ys ih =>
    obtain ⟨hy, hys⟩ := List.pairwise_cons.mp hascending
    have hPy := hsorted y List.mem_cons_self
    have hPys : ∀ z ∈ ys, P z := fun z hz => hsorted z (List.mem_cons_of_mem y hz)
    rw [insertDescending]
    split
    next hlt =>
      refine List.pairwise_cons.mpr ⟨fun z hz => ?_, ih hPys hys⟩
      have hmem := (rearranged_insertDescending less x ys).perm.mem_iff.mpr hz
      rcases List.mem_cons.mp hmem with rfl | hz
      · exact h.asymm hx hPy hlt
      · exact hy z hz
    next hle =>
      have hyx : less x y = false := Bool.eq_false_iff.mpr hle
      refine List.pairwise_cons.mpr ⟨fun z hz => ?_, hascending⟩
      rcases List.mem_cons.mp hz with rfl | hz
      · exact hyx
      · exact h.trans (hPys z hz) hPy hx (hy z hz) hyx

theorem rearranged_insertAll (less : α → α → Bool) (sorted xs : List α) :
    Rearranged less (sorted.reverse ++ xs) (insertAll less sorted xs).reverse := by
  induction xs generalizing sorted with
  | nil =>
    rw [List.append_nil]
    exact .refl _
  | cons x xs ih =>
    refine Rearranged.trans ?_ (ih (insertDescending less x sorted))
    have hone := (rearranged_insertDescending less x sorted).reverse.append_right xs
    rwa [List.reverse_cons, List.append_assoc, List.singleton_append] at hone

theorem ascending_insertAll (h : Orders less P) (hsorted : ∀ y ∈ sorted, P y)
    (hxs : ∀ y ∈ xs, P y) (hascending : Ascending less sorted.reverse) :
    Ascending less (insertAll less sorted xs).reverse := by
  induction xs generalizing sorted with
  | nil => exact hascending
  | cons x xs ih =>
    have hx := hxs x List.mem_cons_self
    refine ih (fun y hy => ?_) (fun y hy => hxs y (List.mem_cons_of_mem x hy))
      (ascending_insertDescending h hx hsorted hascending)
    have hmem := (rearranged_insertDescending less x sorted).perm.mem_iff.mpr hy
    rcases List.mem_cons.mp hmem with rfl | hy
    · exact hx
    · exact hsorted y hy

/-- Items are sorted by inserting each of them. -/
theorem sorts_insertionSort (h : Orders less P) (hxs : ∀ x ∈ xs, P x) :
    Sorts less xs (insertionSort less xs) :=
  ⟨rearranged_insertAll less [] xs, ascending_insertAll h (List.forall_mem_nil P) hxs .nil⟩

/-! ### Four items -/

section Four

variable {a b c d : α}

/-- One comparison sorts two items. -/
theorem sorts_pair (h : Orders less P) (ha : P a) (hb : P b) :
    ∃ low high, (if less b a then (b, a) else (a, b)) = (low, high) ∧
      Sorts less [a, b] [low, high] := by
  split
  next hlt =>
    refine ⟨b, a, rfl, .swap [] (.inr hlt), ascending_pair.mpr (h.asymm hb ha hlt)⟩
  next hle =>
    exact ⟨a, b, rfl, .self (ascending_pair.mpr (Bool.eq_false_iff.mpr hle))⟩

/-- The last comparison: the two items between the least and the greatest one. -/
theorem sorts_between (h : Orders less P) (hb : P b) (hc : P c)
    (hleast : less b a = false ∧ less c a = false ∧ less d a = false)
    (hgreatest : less d b = false ∧ less d c = false) :
    Sorts less [a, b, c, d] (if less c b then [a, c, b, d] else [a, b, c, d]) := by
  obtain ⟨m, n, hpair, hsorts⟩ := sorts_pair h hb hc
  have hresult : (if less c b then [a, c, b, d] else [a, b, c, d]) = a :: ([m, n] ++ [d]) := by
    split at hpair
    next hlt =>
      obtain ⟨rfl, rfl⟩ := Prod.mk.inj hpair
      exact if_pos hlt
    next hle =>
      obtain ⟨rfl, rfl⟩ := Prod.mk.inj hpair
      exact if_neg hle
  have hlast : Sorts less ([b, c] ++ [d]) ([m, n] ++ [d]) :=
    hsorts.append (.self (List.pairwise_singleton _ d)) (by simpa using hgreatest)
  rw [hresult]
  exact hlast.cons (by simpa using hleast)

/-- Five comparisons sort four items. -/
theorem sorts_sortFour (h : Orders less P) (ha : P a) (hb : P b) (hc : P c) (hd : P d) :
    Sorts less [a, b, c, d] (sortFour less a b c d) := by
  obtain ⟨low, high, hpair, hsorts⟩ := sorts_pair h ha hb
  obtain ⟨low', high', hpair', hsorts'⟩ := sorts_pair h hc hd
  have hab : ∀ x ∈ [low, high], P x := fun x hx => by
    rcases List.mem_pair.mp (hsorts.mem_iff.mpr hx) with rfl | rfl <;> assumption
  have hcd : ∀ x ∈ [low', high'], P x := fun x hx => by
    rcases List.mem_pair.mp (hsorts'.mem_iff.mpr hx) with rfl | rfl <;> assumption
  obtain ⟨hlow, hhigh, -⟩ := List.forall_mem_cons.mp hab |>.imp_right List.forall_mem_cons.mp
  obtain ⟨hlow', hhigh', -⟩ := List.forall_mem_cons.mp hcd |>.imp_right List.forall_mem_cons.mp
  have hle : less high low = false := ascending_pair.mp hsorts.ascending
  have hle' : less high' low' = false := ascending_pair.mp hsorts'.ascending
  refine .of_rearranged (hsorts.rearranged.append hsorts'.rearranged) ?_
  -- the lesser item of the second pair goes to the front past all of the first pair
  have hfront (hlows : less low' low) (hpass : less low' high) :
      Rearranged less [low, high, low', high'] [low', low, high, high'] := by
    have hparted : ∀ x ∈ [low, high], ∀ y ∈ [low'], Parted less x y := by
      simp [Parted, hlows, hpass]
    exact (Rearranged.exchange hparted).append_right [high']
  rw [sortFour, hpair, hpair']
  rcases hlows : less low' low with _ | _ <;> rcases hhighs : less high' high with _ | _ <;>
    simp only [hlows, hhighs, Bool.false_eq_true, if_false, if_true]
  · exact sorts_between h hhigh hlow' ⟨hle, hlows, h.trans hlow hlow' hhigh' hlows hle'⟩
      ⟨hhighs, hle'⟩
  · have hpass : less low' high := h.lt_of_le_of_lt hlow' hhigh' hhigh hle' hhighs
    have hparted : ∀ y ∈ [low', high'], Parted less high y := by simp [Parted, hpass, hhighs]
    have hback : Rearranged less [low, high, low', high'] [low, low', high', high] :=
      (Rearranged.past hparted []).cons low
    exact .of_rearranged hback (sorts_between h hlow' hhigh'
      ⟨hlows, h.trans hlow hlow' hhigh' hlows hle', hle⟩
      ⟨h.asymm hlow' hhigh hpass, h.asymm hhigh' hhigh hhighs⟩)
  · have hpass : less low' high := h.lt_of_lt_of_le hlow' hlow hhigh hlows hle
    exact .of_rearranged (hfront hlows hpass) (sorts_between h hlow hhigh
      ⟨h.asymm hlow' hlow hlows, h.asymm hlow' hhigh hpass, hle'⟩
      ⟨h.trans hlow hhigh hhigh' hle hhighs, hhighs⟩)
  · have hpass : less low' high := h.lt_of_lt_of_le hlow' hlow hhigh hlows hle
    have hback : Rearranged less [low', low, high, high'] [low', low, high', high] :=
      ((Rearranged.swap [] (.inr hhighs)).cons low).cons low'
    exact .of_rearranged ((hfront hlows hpass).trans hback) (sorts_between h hlow hhigh'
      ⟨h.asymm hlow' hlow hlows, hle', h.asymm hlow' hhigh hpass⟩
      ⟨hle, h.asymm hhigh' hhigh hhighs⟩)

/-- The first four items are sorted together, the others are inserted. -/
theorem sorts_insertBehindFour (h : Orders less P) (hxs : ∀ x ∈ xs, P x) :
    Sorts less xs (insertBehindFour less xs) := by
  fun_cases insertBehindFour less xs with
  | case1 a b c d rest =>
    obtain ⟨ha, hb, hc, hd, hrest⟩ : P a ∧ P b ∧ P c ∧ P d ∧ ∀ x ∈ rest, P x := by
      simpa only [List.forall_mem_cons] using hxs
    have hfour := sorts_sortFour h ha hb hc hd
    have hPfour : ∀ x ∈ (sortFour less a b c d).reverse, P x := fun x hx => by
      have hmem := hfour.mem_iff.mpr (List.mem_reverse.mp hx)
      simp only [List.mem_cons, List.not_mem_nil, or_false] at hmem
      rcases hmem with rfl | rfl | rfl | rfl <;> assumption
    have hinserted := rearranged_insertAll less (sortFour less a b c d).reverse rest
    have hascending : Ascending less (sortFour less a b c d).reverse.reverse := by
      rw [List.reverse_reverse]
      exact hfour.ascending
    rw [List.reverse_reverse] at hinserted
    exact ⟨(hfour.rearranged.append_right rest).trans hinserted,
      ascending_insertAll h hPfour hrest hascending⟩
  | case2 => exact sorts_insertionSort h hxs

end Four

end Stencil.Sorting
