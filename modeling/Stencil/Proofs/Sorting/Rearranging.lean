import Mathlib.Data.List.Basic
import Mathlib.Data.List.Pairwise
import Mathlib.Data.List.Perm.Basic

/-!
# Rearranging without a change of ties

To sort stably is to put a list into ascending order and to leave items in their order of which
neither is less than the other. The second half is told by what may be done: two neighbours change
places only if they are **parted**, one of them less than the other (`Rearranged`). All that a
sorting procedure does to its lists is done in such steps, in parts of a list, from the front or
from the back, so no count of places is needed anywhere. That ties keep their order is read off in
the end (`Rearranged.filter_eq`).

Only the items of a list have to be ordered. So `Orders` is told of the items with a property, and
the property goes along with every list.
-/

namespace Stencil.Sorting

variable {α : Type} {less : α → α → Bool} {P : α → Prop} {a b x : α} {xs ys zs ws : List α}

/-! ### Orders -/

/-- One of two items is less than the other. -/
def Parted (less : α → α → Bool) (a b : α) : Prop := less a b ∨ less b a

theorem Parted.symm (h : Parted less a b) : Parted less b a := Or.symm h

/-- Among the items with a property, `less` is an order in which items may be equal. -/
structure Orders (less : α → α → Bool) (P : α → Prop) : Prop where
  asymm {a b : α} : P a → P b → less a b → less b a = false
  trans {a b c : α} : P a → P b → P c → less b a = false → less c b = false → less c a = false

namespace Orders

variable {c : α} (h : Orders less P) (ha : P a) (hb : P b) (hc : P c)
include h ha

theorem irrefl : less a a = false := by
  rcases hself : less a a with _ | _
  · rfl
  · exact hself.symm.trans (h.asymm ha ha hself)

include hb hc

theorem lt_of_lt_of_le (hab : less a b) (hbc : less c b = false) : less a c := by
  rcases hac : less a c with _ | _
  · exact absurd hab (by rw [h.trans hb hc ha hbc hac]; exact Bool.false_ne_true)
  · rfl

theorem lt_of_le_of_lt (hab : less b a = false) (hbc : less b c) : less a c := by
  rcases hac : less a c with _ | _
  · exact absurd hbc (by rw [h.trans hc ha hb hac hab]; exact Bool.false_ne_true)
  · rfl

omit ha hb hc

/-- From the back the order is turned round. -/
theorem flip : Orders (fun a b => less b a) P where
  asymm ha hb hab := h.asymm hb ha hab
  trans ha hb hc hab hbc := h.trans hc hb ha hbc hab

end Orders

/-! ### Rearranged lists -/

/-- A list comes from another one by exchanges of neighbours that are parted. -/
inductive Rearranged (less : α → α → Bool) : List α → List α → Prop
  | nil : Rearranged less [] []
  | cons (a : α) {xs ys : List α} : Rearranged less xs ys → Rearranged less (a :: xs) (a :: ys)
  | swap {a b : α} (xs : List α) : Parted less a b → Rearranged less (a :: b :: xs) (b :: a :: xs)
  | trans {xs ys zs : List α} : Rearranged less xs ys → Rearranged less ys zs →
      Rearranged less xs zs

namespace Rearranged

theorem refl (xs : List α) : Rearranged less xs xs := by
  induction xs with
  | nil => exact .nil
  | cons a _ ih => exact .cons a ih

theorem symm (h : Rearranged less xs ys) : Rearranged less ys xs := by
  induction h with
  | nil => exact .nil
  | cons a _ ih => exact .cons a ih
  | swap xs hab => exact .swap xs hab.symm
  | trans _ _ ih ih' => exact ih'.trans ih

theorem perm (h : Rearranged less xs ys) : xs.Perm ys := by
  induction h with
  | nil => exact .nil
  | cons a _ ih => exact ih.cons a
  | swap xs _ => exact .swap _ _ xs
  | trans _ _ ih ih' => exact ih.trans ih'

theorem append_left (xs : List α) (h : Rearranged less ys zs) :
    Rearranged less (xs ++ ys) (xs ++ zs) := by
  induction xs with
  | nil => exact h
  | cons a _ ih => exact .cons a ih

theorem append_right (h : Rearranged less xs ys) (zs : List α) :
    Rearranged less (xs ++ zs) (ys ++ zs) := by
  induction h with
  | nil => exact refl zs
  | cons a _ ih => exact .cons a ih
  | swap xs hab => exact .swap (xs ++ zs) hab
  | trans _ _ ih ih' => exact ih.trans ih'

theorem append (h : Rearranged less xs ys) (h' : Rearranged less zs ws) :
    Rearranged less (xs ++ zs) (ys ++ ws) :=
  (h.append_right zs).trans (h'.append_left ys)

/-- An item goes past items that are all parted from it. -/
theorem past (h : ∀ y ∈ xs, Parted less x y) (ys : List α) :
    Rearranged less (x :: xs ++ ys) (xs ++ x :: ys) := by
  induction xs with
  | nil => exact refl _
  | cons y xs ih =>
    exact (swap (xs ++ ys) (h y List.mem_cons_self)).trans
      ((ih fun z hz => h z (List.mem_cons_of_mem y hz)).cons y)

/-- Two lists change places if their items are parted. -/
theorem exchange (h : ∀ x ∈ xs, ∀ y ∈ ys, Parted less x y) :
    Rearranged less (xs ++ ys) (ys ++ xs) := by
  induction xs with
  | nil => rw [List.append_nil]; exact refl ys
  | cons x xs ih =>
    have hrest := ih fun z hz => h z (List.mem_cons_of_mem x hz)
    exact (hrest.cons x).trans (past (h x List.mem_cons_self) xs)

theorem reverse (h : Rearranged less xs ys) : Rearranged less xs.reverse ys.reverse := by
  induction h with
  | nil => exact .nil
  | cons a _ ih =>
    rw [List.reverse_cons, List.reverse_cons]
    exact ih.append_right [a]
  | swap xs hab =>
    simp only [List.reverse_cons, List.append_assoc]
    exact append_left _ (swap [] hab.symm)
  | trans _ _ ih ih' => exact ih.trans ih'

/-- The order may be turned round. -/
theorem flip (h : Rearranged less xs ys) : Rearranged (fun a b => less b a) xs ys := by
  induction h with
  | nil => exact .nil
  | cons a _ ih => exact .cons a ih
  | swap xs hab => exact .swap xs hab.symm
  | trans _ _ ih ih' => exact ih.trans ih'

/-- A list of items that are all parted from each other is reversed. -/
theorem reversed (h : xs.Pairwise (Parted less)) : Rearranged less xs xs.reverse := by
  induction xs with
  | nil => exact .nil
  | cons x xs ih =>
    obtain ⟨hx, hxs⟩ := List.pairwise_cons.mp h
    rw [List.reverse_cons]
    refine ((ih hxs).cons x).trans ?_
    have hparted : ∀ y ∈ xs.reverse, Parted less x y := fun y hy => hx y (List.mem_reverse.mp hy)
    have hpast := past hparted []
    rwa [List.append_nil] at hpast

/-- Items are drawn to the front if they are parted from those that they pass. -/
theorem filter (p : α → Bool) (h : ∀ x ∈ xs, ∀ y ∈ xs, p x = false → p y → Parted less x y) :
    Rearranged less xs (xs.filter p ++ xs.filter fun x => !p x) := by
  induction xs with
  | nil => exact .nil
  | cons x xs ih =>
    have hrest := ih fun y hy z hz =>
      h y (List.mem_cons_of_mem x hy) z (List.mem_cons_of_mem x hz)
    rcases hx : p x with _ | _
    · simp only [List.filter_cons, hx, Bool.false_eq_true, if_false, Bool.not_false, if_true]
      refine (hrest.cons x).trans (past (fun y hy => ?_) _)
      obtain ⟨hmem, hy⟩ := List.mem_filter.mp hy
      exact h x List.mem_cons_self y (List.mem_cons_of_mem x hmem) hx hy
    · simp only [List.filter_cons, hx, if_true, Bool.not_true, Bool.false_eq_true, if_false]
      exact hrest.cons x

/-- **Ties keep their order.** -/
theorem filter_eq (h : Rearranged less xs ys) (p : α → Bool)
    (hp : ∀ x ∈ xs, ∀ y ∈ xs, p x → p y → ¬ Parted less x y) : xs.filter p = ys.filter p := by
  induction h with
  | nil => rfl
  | cons a _ ih =>
    rw [List.filter_cons, List.filter_cons, ih fun x hx y hy =>
      hp x (List.mem_cons_of_mem a hx) y (List.mem_cons_of_mem a hy)]
  | @swap a b xs hab =>
    have hnot : ¬ (p a ∧ p b) := fun ⟨ha, hb⟩ =>
      hp a List.mem_cons_self b (List.mem_cons_of_mem a List.mem_cons_self) ha hb hab
    rcases ha : p a with _ | _ <;> rcases hb : p b with _ | _
    case true.true => exact absurd ⟨ha, hb⟩ hnot
    all_goals simp only [List.filter_cons, ha, hb, Bool.false_eq_true, if_false, if_true]
  | trans h _ ih ih' =>
    refine (ih hp).trans (ih' fun x hx y hy => ?_)
    exact hp x (h.perm.mem_iff.mpr hx) y (h.perm.mem_iff.mpr hy)

end Rearranged

/-! ### Sorted lists -/

/-- No item of a list is less than one before it. -/
def Ascending (less : α → α → Bool) (xs : List α) : Prop :=
  xs.Pairwise fun a b => less b a = false

theorem ascending_pair : Ascending less [a, b] ↔ less b a = false :=
  List.pairwise_pair

theorem Ascending.reverse (h : Ascending less xs) :
    Ascending (fun a b => less b a) xs.reverse :=
  List.pairwise_reverse.mpr h

/-- A list is put into ascending order, and ties are left as they are. -/
structure Sorts (less : α → α → Bool) (xs ys : List α) : Prop where
  rearranged : Rearranged less xs ys
  ascending : Ascending less ys

namespace Sorts

theorem mem_iff (h : Sorts less xs ys) : x ∈ xs ↔ x ∈ ys :=
  h.rearranged.perm.mem_iff

theorem self (h : Ascending less xs) : Sorts less xs xs :=
  ⟨.refl xs, h⟩

theorem of_rearranged (h : Rearranged less xs ys) (h' : Sorts less ys zs) : Sorts less xs zs :=
  ⟨h.trans h'.rearranged, h'.ascending⟩

/-- Two sorted parts are sorted together if nothing of the second part is less than something of
the first one. -/
theorem append (h : Sorts less xs ys) (h' : Sorts less zs ws)
    (hle : ∀ x ∈ xs, ∀ z ∈ zs, less z x = false) : Sorts less (xs ++ zs) (ys ++ ws) where
  rearranged := h.rearranged.append h'.rearranged
  ascending := List.pairwise_append.mpr ⟨h.ascending, h'.ascending, fun y hy w hw =>
    hle y (h.mem_iff.mpr hy) w (h'.mem_iff.mpr hw)⟩

theorem cons (h : Sorts less xs ys) (hle : ∀ y ∈ xs, less y x = false) :
    Sorts less (x :: xs) (x :: ys) :=
  (self (List.pairwise_singleton _ x)).append h fun y hy => by
    rwa [List.mem_singleton.mp hy]

/-- What is sorted from the back is sorted. -/
theorem of_reverse (h : Sorts (fun a b => less b a) xs.reverse ys.reverse) : Sorts less xs ys := by
  obtain ⟨hrearranged, hascending⟩ := h
  refine ⟨?_, ?_⟩
  · have hback := hrearranged.reverse.flip
    rwa [List.reverse_reverse, List.reverse_reverse] at hback
  · exact List.pairwise_reverse.mp hascending

end Sorts

end Stencil.Sorting
