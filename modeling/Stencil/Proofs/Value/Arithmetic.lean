import Mathlib.Algebra.Order.Floor.Ring
import Mathlib.Data.Rat.Floor
import Stencil.Value.Number

/-!
# Arithmetic on integers

The operators know the integers of 64 bits, and their results may not be such integers. Then the
result is a float (`Value.ExactOrFloat`): a sum, a difference, a product, a negation or a power that
does not fit, and a quotient that does not fit or is not whole. No result is ever wrapped around.

* `Number.pow?` looks at its base and gives up at exponent 64. That loses no power that fits
  (`Number.pow?_eq`), since a base beyond ±1 at least doubles its powers.
* The least integer has no negation of 64 bits, so it is the one dividend that needs care: divided
  by −1 it gives a float, and its remainder is zero (`Value.rem_int`).
* The whole quotient is the one that leaves a remainder of at least zero. That is the floor of the
  quotient for a divisor above zero; for one below zero it is one more, unless there is no remainder
  (`Value.floorDiv_eq_floor_or_succ`).
-/

namespace Stencil

namespace Number

/-- Whether 64 bits hold an integer. -/
theorem fits_iff {z : Int} : fits z = true ↔ -2 ^ 63 ≤ z ∧ z < 2 ^ 63 := by
  have hmax : z ≤ Int64.maxValue.toInt ↔ z < 2 ^ 63 := Int.lt_add_one_iff.symm
  rw [fits, Bool.and_eq_true, decide_eq_true_eq, decide_eq_true_eq, hmax]
  exact Iff.rfl

theorem fits_toInt (n : Int64) : fits n.toInt = true :=
  fits_iff.mpr ⟨n.le_toInt, n.toInt_lt⟩

theorem toInt_ofInt {z : Int} (h : fits z = true) : (Int64.ofInt z).toInt = z :=
  Int64.toInt_ofInt_of_le (fits_iff.mp h).1 (fits_iff.mp h).2

theorem ofInt?_eq_some_iff {z : Int} {n : Int64} : ofInt? z = some n ↔ n.toInt = z := by
  rw [ofInt?]
  constructor
  · intro h
    split at h
    next hz =>
      cases h
      exact toInt_ofInt hz
    next => cases h
  · rintro rfl
    rw [if_pos (fits_toInt n), Int64.ofInt_toInt]

theorem ofInt?_eq_none_iff {z : Int} : ofInt? z = none ↔ ∀ n : Int64, n.toInt ≠ z := by
  simp only [Option.eq_none_iff_forall_ne_some, ne_eq, ofInt?_eq_some_iff]

/-! ### Powers -/

/-- The powers of a base beyond ±1 double at least. -/
theorem two_pow_le_natAbs_pow {a : Int} (ha : 2 ≤ a.natAbs) (b : Nat) :
    2 ^ b ≤ (a ^ b).natAbs := by
  rw [Int.natAbs_pow]
  exact Nat.pow_le_pow_left ha b

/-- **A power is given up only where it does not fit.** -/
theorem pow?_eq (a : Int) (b : Nat) : pow? a b = ofInt? (a ^ b) := by
  have hone : ofInt? 1 = some 1 := rfl
  rw [pow?]
  split
  next ha =>
    rw [ha]
    split
    next hb => rw [hb, pow_zero, hone]
    next hb => rw [zero_pow hb]; rfl
  next hzero =>
  split
  next ha => rw [ha, one_pow, hone]
  next hpos =>
  split
  next ha =>
    rw [ha]
    split
    next hb => rw [Even.neg_one_pow (Nat.even_iff.mpr hb), hone]
    next hb => rw [Odd.neg_one_pow (Nat.odd_iff.mpr (by omega))]; rfl
  next hneg =>
  split
  next => rfl
  next hb =>
    have hbase : 2 ≤ a.natAbs := by omega
    have hlarge : 2 ^ 64 ≤ (a ^ b).natAbs :=
      le_trans (Nat.pow_le_pow_right (by decide) (by omega)) (two_pow_le_natAbs_pow hbase b)
    refine (ofInt?_eq_none_iff.mpr fun n hn => ?_).symm
    have hlow := n.le_toInt
    have hhigh := n.toInt_lt
    omega

end Number

namespace Value

/-! ### Results that may not fit -/

/-- Whether the value is the integer of 64 bits that is asked for, or a float because there is
none. -/
def ExactOrFloat (asked : Int → Prop) (v : Value) : Prop :=
  (∃ n : Int64, asked n.toInt ∧ v = .int n) ∨
    (∀ n : Int64, ¬ asked n.toInt) ∧ ∃ x : Float, v = .float x

variable (a b : Int64)

theorem exactOrFloat_exactOr (z : Int) (x : Float) :
    (Number.exactOr z x).ExactOrFloat (· = z) := by
  rw [Number.exactOr]
  split
  next n hn => exact .inl ⟨n, Number.ofInt?_eq_some_iff.mp hn, rfl⟩
  next hnone => exact .inr ⟨Number.ofInt?_eq_none_iff.mp hnone, x, rfl⟩

theorem add_int : ∃ v, add (.int a) (.int b) = .ok v ∧ v.ExactOrFloat (· = a.toInt + b.toInt) :=
  ⟨_, rfl, exactOrFloat_exactOr _ _⟩

theorem sub_int : ∃ v, sub (.int a) (.int b) = .ok v ∧ v.ExactOrFloat (· = a.toInt - b.toInt) :=
  ⟨_, rfl, exactOrFloat_exactOr _ _⟩

theorem mul_int : ∃ v, mul (.int a) (.int b) = .ok v ∧ v.ExactOrFloat (· = a.toInt * b.toInt) :=
  ⟨_, rfl, exactOrFloat_exactOr _ _⟩

theorem neg_int : ∃ v, neg (.int a) = .ok v ∧ v.ExactOrFloat (· = -a.toInt) :=
  ⟨_, rfl, exactOrFloat_exactOr _ _⟩

/-- A power whose exponent has 32 bits is exact if it fits, and any other is a float. -/
theorem pow_int :
    ∃ v, pow (.int a) (.int b) = .ok v ∧
      if 0 ≤ b.toInt ∧ b.toInt ≤ 2 ^ 32 - 1 then
        v.ExactOrFloat (· = a.toInt ^ b.toInt.toNat)
      else ∃ x, v = .float x := by
  have hsize : (0 ≤ b.toInt && b.toInt < UInt32.size) = true ↔
      0 ≤ b.toInt ∧ b.toInt ≤ 2 ^ 32 - 1 := by
    rw [Bool.and_eq_true, decide_eq_true_eq, decide_eq_true_eq, Int.le_sub_one_iff]
    exact Iff.rfl
  simp only [← hsize, pow, operands, toNumber?, bind, Except.bind, pure, Except.pure]
  split
  · rw [Number.pow?_eq]
    split
    next n hn => exact ⟨_, rfl, .inl ⟨n, Number.ofInt?_eq_some_iff.mp hn, rfl⟩⟩
    next hnone => exact ⟨_, rfl, .inr ⟨Number.ofInt?_eq_none_iff.mp hnone, _, rfl⟩⟩
  · exact ⟨_, rfl, _, rfl⟩

/-! ### Division -/

variable {b}

theorem toInt_ne_zero (hb : b ≠ 0) : b.toInt ≠ 0 :=
  fun h => hb (Int64.toInt_inj.mp h)

/-- Only zero is refused as a divisor. -/
theorem divisionOperands_int (op : String) (fault : RenderFault) (hb : b ≠ 0) :
    divisionOperands op fault (.int a) (.int b) = .ok (.int a, .int b) := by
  have hzero : (Number.int b).isZero = false := by simpa [Number.isZero] using hb
  simp [divisionOperands, operands, toNumber?, hzero, bind, Except.bind, pure, Except.pure]

/-- A quotient is an integer if there is one of 64 bits that is the whole quotient. -/
theorem div_int (hb : b ≠ 0) :
    ∃ v, div (.int a) (.int b) = .ok v ∧ v.ExactOrFloat (· * b.toInt = a.toInt) := by
  have hzero := toInt_ne_zero hb
  simp only [div, divisionOperands_int a _ _ hb, bind, Except.bind, pure, Except.pure]
  split
  next hrem =>
    have hquotient : (· = a.toInt.tdiv b.toInt) = (· * b.toInt = a.toInt) := by
      funext q
      refine propext ⟨fun hq => ?_, fun hq => ?_⟩
      · rw [hq, Int.tdiv_mul_cancel (Int.dvd_of_tmod_eq_zero hrem)]
      · rw [← hq, Int.mul_tdiv_cancel _ hzero]
    exact ⟨_, rfl, hquotient ▸ exactOrFloat_exactOr _ _⟩
  next hrem =>
    refine ⟨_, rfl, .inr ⟨fun n hn => hrem ?_, _, rfl⟩⟩
    rw [← hn, Int.mul_tmod_left]

/-- A remainder is less than the divisor and has the sign of the dividend. It always fits. -/
theorem rem_int (hb : b ≠ 0) :
    ∃ r : Int64, rem (.int a) (.int b) = .ok (.int r) ∧ r.toInt.natAbs < b.toInt.natAbs ∧
      (r.toInt = 0 ∨ r.toInt.sign = a.toInt.sign) ∧ b.toInt ∣ a.toInt - r.toInt := by
  have hlt : (a.toInt.tmod b.toInt).natAbs < b.toInt.natAbs := by
    rw [Int.natAbs_tmod]
    exact Nat.mod_lt _ (Int.natAbs_pos.mpr (toInt_ne_zero hb))
  have hsign : a.toInt.tmod b.toInt = 0 ∨ (a.toInt.tmod b.toInt).sign = a.toInt.sign := by
    by_cases hdvd : b.toInt ∣ a.toInt
    · exact .inl (Int.tmod_eq_zero_of_dvd hdvd)
    · exact .inr (by rw [Int.sign_tmod, if_neg hdvd])
  have hfits : Number.fits (a.toInt.tmod b.toInt) = true := by
    have hlow := b.le_toInt
    have hhigh := b.toInt_lt
    rw [Number.fits_iff]
    omega
  refine ⟨Int64.ofInt (a.toInt.tmod b.toInt), ?_, ?_⟩
  · simp only [rem, divisionOperands_int a _ _ hb, bind, Except.bind, pure, Except.pure]
  · rw [Number.toInt_ofInt hfits]
    exact ⟨hlt, hsign, Int.dvd_self_sub_tmod⟩

/-- The whole quotient leaves a remainder that is not below zero. -/
theorem floorDiv_int (hb : b ≠ 0) :
    ∃ v, floorDiv (.int a) (.int b) = .ok v ∧ v.ExactOrFloat (· = a.toInt / b.toInt) := by
  simp only [floorDiv, divisionOperands_int a _ _ hb, bind, Except.bind, pure, Except.pure]
  exact ⟨_, rfl, exactOrFloat_exactOr _ _⟩

/-! ### All operators -/

/-- **Arithmetic on integers is exact or a float, and never wraps.** Only a division by zero
fails. -/
theorem integers_never_wrap (a b : Int64) :
    (∃ v, add (.int a) (.int b) = .ok v ∧ v.ExactOrFloat (· = a.toInt + b.toInt)) ∧
    (∃ v, sub (.int a) (.int b) = .ok v ∧ v.ExactOrFloat (· = a.toInt - b.toInt)) ∧
    (∃ v, mul (.int a) (.int b) = .ok v ∧ v.ExactOrFloat (· = a.toInt * b.toInt)) ∧
    (∃ v, neg (.int a) = .ok v ∧ v.ExactOrFloat (· = -a.toInt)) ∧
    (∃ v, pow (.int a) (.int b) = .ok v ∧
      if 0 ≤ b.toInt ∧ b.toInt ≤ 2 ^ 32 - 1 then v.ExactOrFloat (· = a.toInt ^ b.toInt.toNat)
      else ∃ x, v = .float x) ∧
    if b = 0 then
      div (.int a) (.int b) = .error (.render .divisionByZero) ∧
      floorDiv (.int a) (.int b) = .error (.render .divisionByZero) ∧
      rem (.int a) (.int b) = .error (.render .moduloByZero)
    else
      (∃ v, div (.int a) (.int b) = .ok v ∧ v.ExactOrFloat (· * b.toInt = a.toInt)) ∧
      (∃ v, floorDiv (.int a) (.int b) = .ok v ∧ v.ExactOrFloat (· = a.toInt / b.toInt)) ∧
      ∃ r : Int64, rem (.int a) (.int b) = .ok (.int r) ∧ r.toInt.natAbs < b.toInt.natAbs ∧
        (r.toInt = 0 ∨ r.toInt.sign = a.toInt.sign) ∧ b.toInt ∣ a.toInt - r.toInt := by
  refine ⟨add_int a b, sub_int a b, mul_int a b, neg_int a, pow_int a b, ?_⟩
  split
  next hb =>
    subst hb
    exact ⟨rfl, rfl, rfl⟩
  next hb => exact ⟨div_int a hb, floorDiv_int a hb, rem_int a hb⟩

/-! ### The floor of a quotient -/

/-- The floor of a quotient is one less than the whole quotient if the divisor is below zero and
leaves a remainder. -/
theorem floor_div_eq (m n : Int) :
    ⌊(m : ℚ) / n⌋ = m / n - if 0 ≤ n ∨ n ∣ m then 0 else 1 := by
  rw [← Int.fdiv_eq_ediv]
  obtain ⟨d, rfl | rfl⟩ := n.eq_nat_or_neg
  · rw [Int.cast_natCast, Rat.floor_intCast_div_natCast,
      Int.fdiv_eq_ediv_of_nonneg _ (Int.natCast_nonneg d)]
  · have hsigns : (m : ℚ) / (-(d : ℤ) : ℤ) = (-m : ℤ) / (d : ℚ) := by
      rw [Int.cast_neg, Int.cast_neg, Int.cast_natCast, div_neg, neg_div]
    rw [hsigns, Rat.floor_intCast_div_natCast, ← Int.neg_fdiv_neg, neg_neg,
      Int.fdiv_eq_ediv_of_nonneg _ (Int.natCast_nonneg d)]

/-- The whole quotient fits if the floor does. -/
theorem exists_toInt_eq_ediv (hb : b ≠ 0)
    (hfits : ∃ n : Int64, n.toInt = ⌊(a.toInt : ℚ) / b.toInt⌋) :
    ∃ n : Int64, n.toInt = a.toInt / b.toInt := by
  obtain ⟨n, hn⟩ := hfits
  rw [floor_div_eq] at hn
  split at hn
  next => exact ⟨n, by omega⟩
  next hneg =>
    obtain ⟨hneg, hdvd⟩ := not_or.mp hneg
    have hne : b.toInt ≠ -1 := fun hone => hdvd (hone ▸ Int.neg_dvd.mpr (one_dvd _))
    -- only −1 takes the least integer to the one above the greatest
    have hquotient : a.toInt / b.toInt ≠ 2 ^ 63 := by
      intro h
      have hsplit := Int.emod_add_mul_ediv a.toInt b.toInt
      have hrem := Int.emod_lt a.toInt (toInt_ne_zero hb)
      have hlow := a.le_toInt
      rw [h] at hsplit
      omega
    have hfits : Number.fits (a.toInt / b.toInt) = true := by
      have hlow := n.le_toInt
      have hhigh := n.toInt_lt
      rw [Number.fits_iff]
      omega
    exact ⟨_, Number.toInt_ofInt hfits⟩

/-- **The whole quotient of integers is the floor, unless the divisor is below zero and leaves a
remainder.** Then it is one more than the floor. That of floats is the floor. -/
theorem floorDiv_eq_floor_or_succ (hb : b ≠ 0)
    (hfits : ∃ n : Int64, n.toInt = ⌊(a.toInt : ℚ) / b.toInt⌋) :
    (∃ q : Int64, floorDiv (.int a) (.int b) = .ok (.int q) ∧
      q.toInt = ⌊(a.toInt : ℚ) / b.toInt⌋ +
        if 0 < b.toInt ∨ b.toInt ∣ a.toInt then 0 else 1) ∧
      ∀ x y : Float, (y == 0.0) = false →
        floorDiv (.float x) (.float y) = .ok (.float (x / y).floor) := by
  constructor
  · obtain ⟨q, hq⟩ := exists_toInt_eq_ediv a hb hfits
    have hsign : (0 < b.toInt ∨ b.toInt ∣ a.toInt) ↔ (0 ≤ b.toInt ∨ b.toInt ∣ a.toInt) := by
      rw [(toInt_ne_zero hb).symm.le_iff_lt]
    refine ⟨q, ?_, ?_⟩
    · obtain ⟨v, hv, ⟨n, hn, rfl⟩ | ⟨hnone, -⟩⟩ := floorDiv_int a hb
      · rw [hv, Int64.toInt_inj.mp (hn.trans hq.symm)]
      · exact absurd hq (hnone q)
    · simp only [hsign, floor_div_eq, hq, Int.sub_add_cancel]
  · intro x y hy
    have hzero : (Number.float y).isZero = false := hy
    simp [floorDiv, divisionOperands, operands, toNumber?, hzero, Number.toFloat, bind, Except.bind,
      pure, Except.pure]

theorem floor_seven_div_neg_two : ⌊((7 : Int64).toInt : ℚ) / (-2 : Int64).toInt⌋ = -4 := by
  rw [floor_div_eq]
  rfl

/-- The sign is on the dividend, or it is on the divisor. -/
theorem floorDiv_eq_floor_or_succ_seven :
    (∃ q : Int64, floorDiv (.int (-7)) (.int 2) = .ok (.int q) ∧ q.toInt = -4) ∧
      ∃ q : Int64, floorDiv (.int 7) (.int (-2)) = .ok (.int q) ∧ q.toInt = -3 := by
  have hfloor : ⌊((-7 : Int64).toInt : ℚ) / (2 : Int64).toInt⌋ = -4 := by
    rw [floor_div_eq]
    rfl
  constructor
  · obtain ⟨q, hq, hvalue⟩ :=
      (floorDiv_eq_floor_or_succ (-7) (b := 2) (by decide) ⟨-4, hfloor.symm⟩).1
    exact ⟨q, hq, by rw [hvalue, hfloor]; rfl⟩
  · obtain ⟨q, hq, hvalue⟩ :=
      (floorDiv_eq_floor_or_succ 7 (b := -2) (by decide) ⟨-4, floor_seven_div_neg_two.symm⟩).1
    exact ⟨q, hq, by rw [hvalue, floor_seven_div_neg_two]; rfl⟩

/-- **Not every whole quotient of integers is the floor.** -/
theorem not_floorDiv_eq_floor :
    ¬ ∀ a b : Int64, b ≠ 0 → (∃ n : Int64, n.toInt = ⌊(a.toInt : ℚ) / b.toInt⌋) →
      ∃ q : Int64, floorDiv (.int a) (.int b) = .ok (.int q) ∧
        q.toInt = ⌊(a.toInt : ℚ) / b.toInt⌋ := by
  intro h
  obtain ⟨q, hq, hvalue⟩ := h 7 (-2) (by decide) ⟨-4, floor_seven_div_neg_two.symm⟩
  have hresult : floorDiv (.int 7) (.int (-2)) = .ok (.int (-3)) := rfl
  rw [hresult] at hq
  cases hq
  rw [floor_seven_div_neg_two] at hvalue
  exact absurd hvalue (by decide)

end Value

end Stencil
