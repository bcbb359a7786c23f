import Stencil.Sorting.Stretch
import Stencil.Proofs.Sorting.Merging

/-!
# Sorting by stretches

The order in which stretches are joined decides how much work there is, but not what comes out:
whatever waits, its items and those that are still to come are the list, rearranged, in the order of
their places. So every step is told by that equation alone, and nothing has to be known of the
heights of nodes. A stretch is **sound** if it is sorted wherever it is marked so.

What stays to be sorted in the end is sorted by any procedure that sorts.
-/

namespace Stencil.Sorting

variable {α : Type} {less : α → α → Bool} {P : α → Prop} {x y : α} {xs ys : List α}

/-! ### Runs -/

theorem runFrom_append (goesOn : α → α → Bool) (x : α) (before xs : List α) :
    (runFrom goesOn x before xs).1.reverse ++ (runFrom goesOn x before xs).2 =
      before.reverse ++ x :: xs := by
  induction xs generalizing x before with
  | nil => rw [runFrom, List.reverse_cons, List.append_assoc]; rfl
  | cons y ys ih =>
    rw [runFrom]
    split
    · rw [ih, List.reverse_cons, List.append_assoc]
      rfl
    · rw [List.reverse_cons, List.append_assoc]
      rfl

/-- What holds of neighbours in a run and is handed on holds throughout the run. -/
theorem pairwise_runFrom {goesOn : α → α → Bool} (R : α → α → Prop)
    (hstep : ∀ {x y}, P x → P y → goesOn x y → R y x)
    (htrans : ∀ {x y z}, P x → P y → P z → R y x → R x z → R y z) {before : List α}
    (hbefore : ∀ z ∈ x :: before, P z) (hxs : ∀ z ∈ xs, P z)
    (hpairwise : (x :: before).Pairwise R) : (runFrom goesOn x before xs).1.Pairwise R := by
  induction xs generalizing x before with
  | nil => exact hpairwise
  | cons y ys ih =>
    have hx := hbefore x List.mem_cons_self
    have hy := hxs y List.mem_cons_self
    rw [runFrom]
    split
    next hgoes =>
      refine ih (List.forall_mem_cons.mpr ⟨hy, hbefore⟩)
        (fun z hz => hxs z (List.mem_cons_of_mem y hz))
        (List.pairwise_cons.mpr ⟨fun z hz => ?_, hpairwise⟩)
      rcases List.mem_cons.mp hz with rfl | hz'
      · exact hstep hx hy hgoes
      · exact htrans hx hy (hbefore z hz) (hstep hx hy hgoes)
          ((List.pairwise_cons.mp hpairwise).1 z hz')
    next => exact hpairwise

/-- The run at the front of a list, and the items that it is made of. -/
theorem sorts_takeRun (h : Orders less P) (hxs : ∀ z ∈ x :: xs, P z) :
    ∃ segment, x :: xs = segment ++ (takeRun less x xs).2 ∧
      Sorts less segment (takeRun less x xs).1 := by
  have hx := hxs x List.mem_cons_self
  rcases xs with _ | ⟨y, ys⟩
  · exact ⟨[x], rfl, .self (List.pairwise_singleton _ x)⟩
  have hy := hxs y (List.mem_cons_of_mem x List.mem_cons_self)
  have hys : ∀ z ∈ ys, P z := fun z hz =>
    hxs z (List.mem_cons_of_mem x (List.mem_cons_of_mem y hz))
  have hstart : ∀ z ∈ [y, x], P z := by
    simpa using ⟨hy, hx⟩
  rw [takeRun]
  split
  next hlt =>
    have hsplit : _ ++ _ = x :: y :: ys := runFrom_append (fun a b => less b a) y [x] ys
    have hstrict : (runFrom (fun a b => less b a) y [x] ys).1.Pairwise fun a b => less a b :=
      pairwise_runFrom (fun a b => less a b) (fun _ _ hlt => hlt)
        (fun hx hy hz hyx hxz => h.lt_of_lt_of_le hy hx hz hyx (h.asymm hx hz hxz)) hstart hys
        (List.pairwise_pair.mpr hlt)
    have hmem : ∀ z ∈ (runFrom (fun a b => less b a) y [x] ys).1, P z := fun z hz =>
      hxs z (hsplit ▸ List.mem_append_left _ (List.mem_reverse.mpr hz))
    refine ⟨_, hsplit.symm, ?_, ?_⟩
    · have hparted := hstrict.imp (S := Parted less) .inl
      exact (Rearranged.reversed hparted).symm
    · exact hstrict.imp_of_mem fun ha hb hab => h.asymm (hmem _ ha) (hmem _ hb) hab
  next hle =>
    have hsplit : _ ++ _ = x :: y :: ys := runFrom_append (inOrder less) y [x] ys
    have hweak : (runFrom (inOrder less) y [x] ys).1.Pairwise fun a b => less a b = false :=
      pairwise_runFrom (fun a b => less a b = false) (fun _ _ hle => Bool.not_eq_true' _ ▸ hle)
        (fun hx hy hz hyx hxz => h.trans hz hx hy hxz hyx) hstart hys
        (List.pairwise_pair.mpr (Bool.eq_false_iff.mpr hle))
    exact ⟨_, hsplit.symm, .self (List.pairwise_reverse.mpr hweak)⟩

/-! ### Stretches -/

/-- A stretch that is sorted if it is marked so. -/
structure Stretch.Sound (less : α → α → Bool) (P : α → Prop) (s : Stretch α) : Prop where
  mem : ∀ x ∈ s.items, P x
  ascending : s.sorted → Ascending less s.items

/-- The items of neighbouring stretches. -/
def itemsOf (ss : List (Stretch α)) : List α := ss.flatMap Stretch.items

/-- Cutting a list into stretches keeps its items, if making a stretch does. -/
theorem stretches_sound (h : Orders less P) (kept piece : ℕ) {make : List α → Option (Stretch α)}
    (hmake : ∀ xs, (∀ x ∈ xs, P x) → ∃ s, make xs = some s ∧ s.Sound less P ∧
      Rearranged less xs s.items) (hxs : ∀ x ∈ xs, P x) :
    ∃ ss, stretches less kept piece make xs = some ss ∧ (∀ s ∈ ss, s.Sound less P) ∧
      Rearranged less xs (itemsOf ss) := by
  fun_induction stretches less kept piece make xs with
  | case1 => exact ⟨[], rfl, List.forall_mem_nil _, .nil⟩
  | case2 x xs hrun ih =>
    obtain ⟨segment, hsplit, hsorts⟩ := sorts_takeRun h hxs
    obtain ⟨ss, hss, hsound, hitems⟩ := ih fun z hz =>
      hxs z (hsplit ▸ List.mem_append_right segment hz)
    have hrun : Stretch.Sound less P ⟨(takeRun less x xs).1, true⟩ :=
      ⟨fun z hz => hxs z (hsplit ▸ List.mem_append_left _ (hsorts.mem_iff.mpr hz)),
        fun _ => hsorts.ascending⟩
    rw [hss]
    refine ⟨_, rfl, List.forall_mem_cons.mpr ⟨hrun, hsound⟩, ?_⟩
    conv => arg 2; rw [hsplit]
    exact hsorts.rearranged.append hitems
  | case3 x xs hrun ih =>
    obtain ⟨s, hs, hstretch, hitem⟩ := hmake (x :: xs.take (piece - 1))
      (List.forall_mem_cons.mpr ⟨hxs x List.mem_cons_self, fun z hz =>
        hxs z (List.mem_cons_of_mem x (List.mem_of_mem_take hz))⟩)
    obtain ⟨ss, hss, hsound, hitems⟩ := ih fun z hz =>
      hxs z (List.mem_cons_of_mem x (List.mem_of_mem_drop hz))
    have hjoined := hitem.append hitems
    rw [List.cons_append, List.take_append_drop] at hjoined
    rw [hs, hss]
    exact ⟨_, rfl, List.forall_mem_cons.mpr ⟨hstretch, hsound⟩, hjoined⟩

/-! ### Joining -/

/-- The items of the stretches that wait, in the order of their places. -/
def itemsWaiting : Waiting α → List α
  | [] => []
  | (left, _) :: waiting => itemsWaiting waiting ++ left.items

section Joining

variable {sortUnsorted : List α → Option (List α)} {s left right last : Stretch α}
  {waiting : Waiting α}

/-- The items of one stretch are sorted, if they are not yet. -/
theorem Stretch.Sound.settle
    (hsort : ∀ xs, (∀ x ∈ xs, P x) → ∃ ys, sortUnsorted xs = some ys ∧ Sorts less xs ys)
    (hs : s.Sound less P) : ∃ ys, s.settle sortUnsorted = some ys ∧ Sorts less s.items ys := by
  rw [Stretch.settle]
  split
  next hsorted => exact ⟨s.items, rfl, .self (hs.ascending hsorted)⟩
  next => exact hsort s.items hs.mem

variable (h : Orders less P)
  (hsort : ∀ xs, (∀ x ∈ xs, P x) → ∃ ys, sortUnsorted xs = some ys ∧ Sorts less xs ys)
include h hsort

/-- Two neighbours are merged, or stay one behind the other. -/
theorem join_sound (hleft : left.Sound less P) (hright : right.Sound less P) :
    ∃ s, join less sortUnsorted left right = some s ∧ s.Sound less P ∧
      Rearranged less (left.items ++ right.items) s.items := by
  rw [join]
  split
  next =>
    obtain ⟨xs, hxs, hsorts⟩ := hleft.settle hsort
    obtain ⟨ys, hys, hsorts'⟩ := hright.settle hsort
    have hPxs : ∀ x ∈ xs, P x := fun x hx => hleft.mem x (hsorts.mem_iff.mpr hx)
    have hPys : ∀ y ∈ ys, P y := fun y hy => hright.mem y (hsorts'.mem_iff.mpr hy)
    have hmerged := sorts_merge h hPxs hPys hsorts.ascending hsorts'.ascending
    rw [hxs, hys]
    refine ⟨_, rfl, ⟨fun z hz => ?_, fun _ => hmerged.ascending⟩,
      (hsorts.rearranged.append hsorts'.rearranged).trans hmerged.rearranged⟩
    exact (List.mem_append.mp (hmerged.mem_iff.mpr hz)).elim (hPxs z) (hPys z)
  next hunsorted =>
    refine ⟨_, rfl, ⟨fun z hz => ?_, fun hsorted => absurd hsorted Bool.false_ne_true⟩, .refl _⟩
    exact (List.mem_append.mp hz).elim (hleft.mem z) (hright.mem z)

/-- Joining with what waits at lower nodes leaves the items where they are. -/
theorem joinUpTo_sound (height : ℕ) (hwaiting : ∀ e ∈ waiting, e.1.Sound less P)
    (hlast : last.Sound less P) :
    ∃ joined waiting', joinUpTo less sortUnsorted height waiting last = some (joined, waiting') ∧
      joined.Sound less P ∧ (∀ e ∈ waiting', e.1.Sound less P) ∧
      Rearranged less (itemsWaiting waiting ++ last.items)
        (itemsWaiting waiting' ++ joined.items) := by
  induction waiting generalizing last with
  | nil => exact ⟨last, [], rfl, hlast, hwaiting, .refl _⟩
  | cons e waiting ih =>
    obtain ⟨left, height'⟩ := e
    obtain ⟨hleft, hwaiting'⟩ := List.forall_mem_cons.mp hwaiting
    rw [joinUpTo]
    split
    next =>
      obtain ⟨s, hs, hsound, hitems⟩ := join_sound h hsort hleft hlast
      obtain ⟨joined, waiting', hjoined, hsound', hrest, hitems'⟩ := ih hwaiting' hsound
      have hall := (hitems.append_left (itemsWaiting waiting)).trans hitems'
      rw [← List.append_assoc] at hall
      rw [hs]
      exact ⟨joined, waiting', hjoined, hsound', hrest, hall⟩
    next => exact ⟨last, (left, height') :: waiting, rfl, hlast, hwaiting, .refl _⟩

/-- Joining with all that waits leaves nothing waiting. -/
theorem joinWaiting_sound (hwaiting : ∀ e ∈ waiting, e.1.Sound less P)
    (hlast : last.Sound less P) :
    ∃ joined, joinWaiting less sortUnsorted waiting last = some joined ∧ joined.Sound less P ∧
      Rearranged less (itemsWaiting waiting ++ last.items) joined.items := by
  induction waiting generalizing last with
  | nil => exact ⟨last, rfl, hlast, .refl _⟩
  | cons e waiting ih =>
    obtain ⟨left, height⟩ := e
    obtain ⟨hleft, hwaiting'⟩ := List.forall_mem_cons.mp hwaiting
    obtain ⟨s, hs, hsound, hitems⟩ := join_sound h hsort hleft hlast
    obtain ⟨joined, hjoined, hsound', hitems'⟩ := ih hwaiting' hsound
    have hall := (hitems.append_left (itemsWaiting waiting)).trans hitems'
    rw [← List.append_assoc] at hall
    rw [joinWaiting, hs]
    exact ⟨joined, hjoined, hsound', hall⟩

/-- **What waits, what is being joined and what is still to come are the list all the time.** -/
theorem joinAll_sound (n start : ℕ) {rest : List (Stretch α)}
    (hwaiting : ∀ e ∈ waiting, e.1.Sound less P) (hlast : last.Sound less P)
    (hrest : ∀ s ∈ rest, s.Sound less P) :
    ∃ joined, joinAll less sortUnsorted n waiting start last rest = some joined ∧
      joined.Sound less P ∧
      Rearranged less (itemsWaiting waiting ++ last.items ++ itemsOf rest) joined.items := by
  induction rest generalizing waiting start last with
  | nil =>
    rw [joinAll, itemsOf, List.flatMap_nil, List.append_nil]
    exact joinWaiting_sound h hsort hwaiting hlast
  | cons next rest ih =>
    obtain ⟨hnext, hrest'⟩ := List.forall_mem_cons.mp hrest
    rw [joinAll]
    dsimp only
    generalize nodeHeight n start (start + last.items.length)
      (start + last.items.length + next.items.length) = height
    obtain ⟨s, waiting', hs, hsound, hwaiting', hitems⟩ :=
      joinUpTo_sound h hsort height hwaiting hlast
    have hnode : ∀ e ∈ (s, height) :: waiting', e.1.Sound less P :=
      List.forall_mem_cons.mpr ⟨hsound, hwaiting'⟩
    obtain ⟨joined, hjoined, hsound', hitems'⟩ :=
      ih (start + last.items.length) hnode hnext hrest'
    rw [hs]
    refine ⟨joined, hjoined, hsound', (hitems.append_right _).trans ?_⟩
    rwa [itemsOf, List.flatMap_cons, ← List.append_assoc]

/-- Stretches are sorted, in whichever order they are joined. -/
theorem sorts_sortStretches (n : ℕ) {ss : List (Stretch α)} (hss : ∀ s ∈ ss, s.Sound less P) :
    ∃ ys, sortStretches? less sortUnsorted n ss = some ys ∧ Sorts less (itemsOf ss) ys := by
  rcases ss with _ | ⟨first, rest⟩
  · exact ⟨[], rfl, .self .nil⟩
  obtain ⟨hfirst, hrest⟩ := List.forall_mem_cons.mp hss
  obtain ⟨joined, hjoined, hsound, hitems⟩ :=
    joinAll_sound h hsort n 0 (List.forall_mem_nil _) hfirst hrest
  obtain ⟨ys, hys, hsorts⟩ := hsound.settle hsort
  rw [sortStretches?, hjoined]
  exact ⟨ys, hys, .of_rearranged hitems hsorts⟩

end Joining

/-- A list is sorted whose pieces between long runs are sorted as blocks. -/
theorem sorts_sortByBlocks (h : Orders less P) (hxs : ∀ x ∈ xs, P x) :
    ∃ ys, sortByBlocks? less xs = some ys ∧ Sorts less xs ys := by
  have hmake : ∀ block : List α, (∀ x ∈ block, P x) →
      ∃ s, (do return ⟨← sortBlock? less block, true⟩ : Option (Stretch α)) = some s ∧
        s.Sound less P ∧ Rearranged less block s.items := by
    intro block hblock
    obtain ⟨ys, hys, hsorts⟩ := sorts_sortBlock h hblock
    rw [hys]
    exact ⟨_, rfl, ⟨fun z hz => hblock z (hsorts.mem_iff.mpr hz), fun _ => hsorts.ascending⟩,
      hsorts.rearranged⟩
  obtain ⟨ss, hss, hsound, hitems⟩ :=
    stretches_sound h (keptLength xs.length) blockLength hmake hxs
  obtain ⟨ys, hys, hsorts⟩ :=
    sorts_sortStretches h (fun _ => sorts_sortBlock h) xs.length hsound
  rw [sortByBlocks?, hss]
  exact ⟨ys, hys, .of_rearranged hitems hsorts⟩

end Stencil.Sorting
