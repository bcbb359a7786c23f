import Mathlib.Data.List.Range
import Mathlib.Order.MinMax
import Stencil.Function
import Stencil.Render.Eval
import Stencil.Proofs.Value.Arithmetic

/-!
# Ranges of integers

A range is walked: the next integer is a step away from the last one, and the walk is over when the
next one would lie past the end or would not have 64 bits. Where the walk comes to is told here in
closed form, on integers of any size (`Stride.map_toInt_walk`): the `k`-th integer lies `k` steps
from the first one, and there are as many as whole steps fit between the ends, and one more.

The one case to look at is a step that leaves the 64 bits. It is no end of its own: what cannot be
written with 64 bits lies past every end (`Stride.count_of_next?_eq_none`), so a walk over all
integers ends as any other one does.
-/

namespace Stencil.Value

namespace Stride

variable (s : Stride) {last x : Int64}

/-- The integer that lies `k` steps from `x`. -/
def place (x : Int64) (k : Nat) : Int :=
  if s.upwards then x.toInt + k * s.step else x.toInt - k * s.step

/-- How many integers a walk from `x` to `last` meets. -/
def count (last x : Int64) : Nat :=
  if s.isPast last x then 0 else (last.toInt - x.toInt).natAbs / s.step + 1

theorem place_zero (x : Int64) : s.place x 0 = x.toInt := by
  simp [place]

variable {s}

theorem next?_eq_some_iff {next : Int64} : s.next? x = some next ↔ next.toInt = s.place x 1 := by
  rw [next?, Number.ofInt?_eq_some_iff, place, Int.natCast_one, Int.one_mul]

/-- Steps are counted from the first integer or from the second one. -/
theorem place_succ {next : Int64} (hnext : s.next? x = some next) (k : Nat) :
    s.place x (k + 1) = s.place next k := by
  have hvalue := next?_eq_some_iff.mp hnext
  simp only [place, Nat.cast_add, Nat.cast_one, Int.add_mul, Int.one_mul] at hvalue ⊢
  split at hvalue
  all_goals
    next hup =>
      simp only [hup, if_true, if_false, Bool.false_eq_true, hvalue]
      omega

/-- A step that is possible is one integer more. -/
theorem count_of_next?_eq_some {next : Int64} (hpast : ¬ s.isPast last x)
    (hnext : s.next? x = some next) : s.count last x = s.count last next + 1 := by
  have hvalue := next?_eq_some_iff.mp hnext
  have hpos := s.step_pos
  rw [count, if_neg hpast, count]
  simp only [place, isPast, Nat.cast_one, Int.one_mul] at hvalue hpast ⊢
  split at hvalue
  all_goals
    next hup =>
      simp only [hup, if_true, if_false, Bool.false_eq_true, decide_eq_true_eq,
        Int64.lt_iff_toInt_lt, not_lt] at hpast ⊢
      split
      · rw [Nat.div_eq_of_lt (by omega)]
      · have hsplit : (last.toInt - x.toInt).natAbs =
            (last.toInt - next.toInt).natAbs + s.step := by omega
        rw [hsplit, Nat.add_div_right _ hpos]

/-- **A step that leaves the integers of 64 bits would lie past the end.** -/
theorem count_of_next?_eq_none (hpast : ¬ s.isPast last x) (hnext : s.next? x = none) :
    s.count last x = 1 := by
  have hnone : ∀ n : Int64, n.toInt ≠ s.place x 1 := fun n hn =>
    Option.some_ne_none _ ((next?_eq_some_iff.mpr hn).symm.trans hnext)
  have hfits : ¬ (-2 ^ 63 ≤ s.place x 1 ∧ s.place x 1 < 2 ^ 63) := fun hfits =>
    hnone _ (Number.toInt_ofInt (Number.fits_iff.mpr hfits))
  have hlow := last.le_toInt
  have hhigh := last.toInt_lt
  have hlow' := x.le_toInt
  have hhigh' := x.toInt_lt
  rw [count, if_neg hpast]
  simp only [place, isPast, Nat.cast_one, Int.one_mul] at hfits hpast
  split at hfits
  all_goals
    next hup =>
      simp only [hup, if_true, if_false, Bool.false_eq_true, decide_eq_true_eq,
        Int64.lt_iff_toInt_lt, not_lt] at hpast
      rw [Nat.div_eq_of_lt (by omega)]

/-- **What a walk meets.** No integer of it is wrapped around. -/
theorem map_toInt_walk (passed : List Int64) :
    (s.walk last passed x).map Int64.toInt =
      passed.reverse.map Int64.toInt ++ (List.range (s.count last x)).map (s.place x) := by
  fun_induction walk s last passed x with
  | case1 passed x hpast =>
    rw [count, if_pos hpast, List.range_zero, List.map_nil, List.append_nil]
  | case2 passed x hpast next hnext ih =>
    rw [ih, count_of_next?_eq_some hpast hnext, List.range_succ_eq_map, List.map_cons, List.map_map,
      place_zero, List.reverse_cons, List.map_append, List.append_assoc]
    exact congrArg (_ ++ ·) (congrArg (_ :: ·) (List.map_congr_left fun k _ =>
      (place_succ hnext k).symm))
  | case3 passed x hpast hnext =>
    rw [count_of_next?_eq_none hpast hnext, List.range_one, List.map_singleton, place_zero,
      List.reverse_cons, List.map_append, List.map_singleton]

end Stride

/-! ### Ranges of integers -/

/-- The `k`-th integer of a range from `a` towards `b`, on integers of any size. -/
def rangeTerm (a b s : Int64) (k : Nat) : Int :=
  if a ≤ b then a.toInt + k * s.toInt.natAbs else a.toInt - k * s.toInt.natAbs

/-- Whether an integer of any size lies between `a` and `b` or is one of them. -/
def LiesBetween (a b : Int64) (z : Int) : Prop :=
  min a.toInt b.toInt ≤ z ∧ z ≤ max a.toInt b.toInt

variable {a b s : Int64}

theorem liesBetween_rangeTerm_iff (hs : s ≠ 0) {k : Nat} :
    LiesBetween a b (rangeTerm a b s k) ↔ k ≤ (b.toInt - a.toInt).natAbs / s.toInt.natAbs := by
  have hpos := natAbs_toInt_pos hs
  rw [Nat.le_div_iff_mul_le hpos, LiesBetween, rangeTerm]
  have hk : (k : Int) * s.toInt.natAbs = ((k * s.toInt.natAbs : Nat) : Int) := by push_cast; rfl
  rw [hk]
  split
  all_goals
    next hab =>
      rw [Int64.le_iff_toInt_le] at hab
      omega

/-- The integers between `a` and `b` are those of the terms that lie between them. -/
theorem map_toInt_intsBetween (hs : s ≠ 0) :
    (intsBetween a b ⟨s.toInt.natAbs, natAbs_toInt_pos hs⟩).map Int64.toInt =
      (List.range ((b.toInt - a.toInt).natAbs / s.toInt.natAbs + 1)).map (rangeTerm a b s) := by
  rw [intsBetween, Stride.map_toInt_walk, List.reverse_nil, List.map_nil, List.nil_append]
  have hplace : Stride.place ⟨a ≤ b, s.toInt.natAbs, natAbs_toInt_pos hs⟩ a = rangeTerm a b s := by
    funext k
    simp only [Stride.place, rangeTerm, decide_eq_true_eq]
  have hpast : ¬ Stride.isPast ⟨a ≤ b, s.toInt.natAbs, natAbs_toInt_pos hs⟩ b a := by
    simp only [Stride.isPast, decide_eq_true_eq, Int64.le_iff_toInt_le, Int64.lt_iff_toInt_lt]
    split <;> simp <;> omega
  rw [hplace, Stride.count, if_neg hpast]

/-- **Ranges of integers are exact.** A range has as many integers as steps fit between its ends,
and one more; each lies so many steps from the first one, between the ends, and the next one would
not. The sign of the step does not matter, a range without a step has step one, and a range with one
end begins at zero. Only a step of zero fails. -/
theorem range_exact (a b s : Int64) :
    (if s = 0 then range (.int a) (.int b) (some (.int s)) = .error (.render .rangeStepZero)
    else ∃ items : List Int64,
      range (.int a) (.int b) (some (.int s)) = .ok (.list (items.map .int)) ∧
      items.length = (b.toInt - a.toInt).natAbs / s.toInt.natAbs + 1 ∧
      (∀ k x, items[k]? = some x → x.toInt = rangeTerm a b s k ∧ LiesBetween a b x.toInt) ∧
      ¬ LiesBetween a b (rangeTerm a b s items.length)) ∧
    BinaryOp.range.apply (.int a) (.int b) = range (.int a) (.int b) (some (.int 1)) ∧
    Table.find? "range" Function.builtins = some Function.range ∧
    Function.range [.int a, .int b] = range (.int a) (.int b) (some (.int 1)) ∧
    Function.range [.int b] = range (.int 0) (.int b) (some (.int 1)) ∧
    ∀ rest, Function.range (.int a :: .int b :: .int s :: rest) =
      range (.int a) (.int b) (some (.int s)) := by
  refine ⟨?_, rfl, rfl, rfl, rfl, fun _ => rfl⟩
  split
  next hs => rw [hs]; rfl
  next hs =>
    have hterms := map_toInt_intsBetween (a := a) (b := b) hs
    set items := intsBetween a b ⟨s.toInt.natAbs, natAbs_toInt_pos hs⟩ with hitems
    have hlength : items.length = (b.toInt - a.toInt).natAbs / s.toInt.natAbs + 1 := by
      have hcount := congrArg List.length hterms
      rwa [List.length_map, List.length_map, List.length_range] at hcount
    refine ⟨items, ?_, hlength, fun k x hx => ?_, ?_⟩
    · have hstep : stepOf (some (.int s)) = .ok ⟨s.toInt.natAbs, natAbs_toInt_pos hs⟩ := dif_neg hs
      rw [range, hstep]
      rfl
    · have hk : k < items.length := (List.getElem?_eq_some_iff.mp hx).1
      have hterm : x.toInt = rangeTerm a b s k := by
        have hat := congrArg (·[k]?) hterms
        simp only [List.getElem?_map, hx, Option.map_some] at hat
        rw [List.getElem?_range (by omega), Option.map_some, Option.some_inj] at hat
        exact hat
      refine ⟨hterm, ?_⟩
      rw [hterm, liesBetween_rangeTerm_iff hs]
      omega
    · rw [liesBetween_rangeTerm_iff hs, hlength]
      omega

end Stencil.Value
