import Mathlib

/-!
# Integers as floats

An integer of more than 53 bits has no float of its own: it is shifted to 53 bits and rounded by the
bits that are shifted out, and where rounding carries, it is shifted once more. Here it is told with
which significand and on which scale the float of a natural number ends up
(`FloatModel.ofNat_eq`), that nothing of that gets lost in the 64 bits of a float
(`FloatModel.unpack_pack`), and that **a greater number has no lesser float**
(`FloatModel.rounded_le`).

What stands in the way is that rounding reads two bits, the first one below the last place and
whether there are others. Both are told by one number, the **quarters** of the last place: shifting
and rounding are monotone in them.
-/

namespace Stencil.FloatModel

open Float.Model Float.Model.UnpackedFloat

variable {m n : ℕ}

/-! ### Shifting and rounding -/

theorem mantissa_shiftRight (em : ExtendedMantissa) (k : ℕ) :
    (em >>> k).mantissa = em.mantissa / 2 ^ k := by
  induction k with
  | zero => exact (Nat.div_one _).symm
  | succ k ih =>
    have hstep : (em >>> (k + 1)).mantissa = (em >>> k).mantissa / 2 := rfl
    rw [hstep, ih, Nat.div_div_eq_div_mul, Nat.pow_succ]

/-- A mantissa and the bits below its last place, in quarters of that place. Bits deeper than half
of it count as one quarter together. -/
def quarters (em : ExtendedMantissa) : ℕ :=
  4 * em.mantissa + 2 * em.roundBit.toNat + em.stickyBit.toNat

theorem quarters_div_four (em : ExtendedMantissa) : quarters em / 4 = em.mantissa := by
  obtain ⟨m, r, s⟩ := em
  cases r <;> cases s <;> simp [quarters] <;> omega

theorem quarters_shiftRightOne (em : ExtendedMantissa) :
    quarters em.shiftRightOne = 2 * (quarters em / 4) + min 1 (quarters em % 4) := by
  obtain ⟨m, r, s⟩ := em
  have hm := Nat.mod_two_eq_zero_or_one m
  cases r <;> cases s <;> rcases hm with hm | hm <;>
    simp [quarters, ExtendedMantissa.shiftRightOne, hm] <;> omega

theorem quarters_shiftRight_le {em em' : ExtendedMantissa} (h : quarters em ≤ quarters em')
    (k : ℕ) : quarters (em >>> k) ≤ quarters (em' >>> k) := by
  induction k with
  | zero => exact h
  | succ k ih =>
    have hstep : ∀ e : ExtendedMantissa, e >>> (k + 1) = (e >>> k).shiftRightOne := fun _ => rfl
    rw [hstep, hstep, quarters_shiftRightOne, quarters_shiftRightOne]
    omega

/-- Half of the last place is rounded up from an odd mantissa only. -/
theorem roundedMantissa_eq (em : ExtendedMantissa) :
    em.roundedMantissa = (quarters em + 1 + em.mantissa % 2) / 4 := by
  obtain ⟨m, r, s⟩ := em
  cases r <;> cases s <;>
    simp [quarters, ExtendedMantissa.roundedMantissa, ExtendedMantissa.accuracy,
      Accuracy.roundToNearestEven] <;> omega

theorem roundedMantissa_bounds (em : ExtendedMantissa) :
    em.mantissa ≤ em.roundedMantissa ∧ em.roundedMantissa ≤ em.mantissa + 1 := by
  rw [roundedMantissa_eq, ← quarters_div_four]
  omega

theorem roundedMantissa_le {em em' : ExtendedMantissa} (h : quarters em ≤ quarters em') :
    em.roundedMantissa ≤ em'.roundedMantissa := by
  have hdiv : em.mantissa ≤ em'.mantissa := by
    rw [← quarters_div_four, ← quarters_div_four]
    exact Nat.div_le_div_right h
  rcases hdiv.lt_or_eq with hlt | heq
  · calc em.roundedMantissa ≤ em.mantissa + 1 := (roundedMantissa_bounds em).2
      _ ≤ em'.mantissa := hlt
      _ ≤ em'.roundedMantissa := (roundedMantissa_bounds em').1
  · rw [roundedMantissa_eq, roundedMantissa_eq, heq]
    exact Nat.div_le_div_right (by omega)

/-! ### The float of a natural number -/

/-- A number that is shifted to 53 bits and rounded there. -/
def significand (m : ℕ) : ℕ :=
  ((⟨m <<< (52 - m.log2), false, false⟩ : ExtendedMantissa) >>> (m.log2 - 52)).roundedMantissa

theorem significand_bounds (hm : m ≠ 0) : 2 ^ 52 ≤ significand m ∧ significand m ≤ 2 ^ 53 := by
  have hbounds : _ ≤ significand m ∧ significand m ≤ _ := roundedMantissa_bounds
    ((⟨m <<< (52 - m.log2), false, false⟩ : ExtendedMantissa) >>> (m.log2 - 52))
  have hlow := Nat.log2_self_le hm
  have hhigh := @Nat.lt_log2_self m
  rw [mantissa_shiftRight, Nat.shiftLeft_eq] at hbounds
  have hshifted : 2 ^ 52 ≤ m * 2 ^ (52 - m.log2) / 2 ^ (m.log2 - 52) ∧
      m * 2 ^ (52 - m.log2) / 2 ^ (m.log2 - 52) < 2 ^ 53 := by
    rw [Nat.le_div_iff_mul_le (Nat.two_pow_pos _), Nat.div_lt_iff_lt_mul (Nat.two_pow_pos _),
      ← Nat.pow_add, ← Nat.pow_add]
    rcases Nat.le_total m.log2 52 with h | h
    · rw [Nat.sub_eq_zero_of_le h]
      constructor
      · calc 2 ^ (52 + 0) = 2 ^ m.log2 * 2 ^ (52 - m.log2) := by rw [← Nat.pow_add]; congr 1; omega
          _ ≤ m * 2 ^ (52 - m.log2) := Nat.mul_le_mul_right _ hlow
      · calc m * 2 ^ (52 - m.log2) < 2 ^ (m.log2 + 1) * 2 ^ (52 - m.log2) :=
            Nat.mul_lt_mul_of_pos_right hhigh (Nat.two_pow_pos _)
          _ = 2 ^ (53 + 0) := by rw [← Nat.pow_add]; congr 1; omega
    · have hfrom : 52 + (m.log2 - 52) = m.log2 := by omega
      have hupTo : 53 + (m.log2 - 52) = m.log2 + 1 := by omega
      rw [Nat.sub_eq_zero_of_le h, Nat.pow_zero, Nat.mul_one, hfrom, hupTo]
      exact ⟨hlow, hhigh⟩
  exact ⟨hshifted.1.trans hbounds.1, hbounds.2.trans hshifted.2⟩

theorem significand_le (hmn : m ≤ n) (hlog : m.log2 = n.log2) : significand m ≤ significand n := by
  rw [significand, significand, hlog]
  refine roundedMantissa_le (quarters_shiftRight_le ?_ _)
  have hscaled := Nat.mul_le_mul_right (2 ^ (52 - n.log2)) hmn
  simp only [quarters, Nat.shiftLeft_eq]
  omega

/-- The significand of a float, and the power of two that its last place counts, for a number that
is rounded to it. -/
def rounded (m : ℕ) : ℕ × ℤ :=
  if significand m = 2 ^ 53 then (2 ^ 52, m.log2 - 51) else (significand m, m.log2 - 52)

theorem rounded_bounds (hm : m ≠ 0) : 2 ^ 52 ≤ (rounded m).1 ∧ (rounded m).1 < 2 ^ 53 := by
  have hbounds := significand_bounds hm
  rw [rounded]
  split <;> dsimp only <;> omega

/-- **A greater number has no lesser float.** -/
theorem rounded_le (hm : m ≠ 0) (hmn : m ≤ n) :
    (rounded m).2 < (rounded n).2 ∨
      (rounded m).2 = (rounded n).2 ∧ (rounded m).1 ≤ (rounded n).1 := by
  have hm' := significand_bounds hm
  have hn' := significand_bounds (show n ≠ 0 by omega)
  have hlog : m.log2 ≤ n.log2 := (Nat.le_log2 (by omega)).mpr ((Nat.log2_self_le hm).trans hmn)
  rcases hlog.lt_or_eq with hlt | heq
  · rw [rounded, rounded]
    split <;> split <;> dsimp only <;> omega
  · have hle := significand_le hmn heq
    rw [rounded, rounded, heq]
    split <;> split <;> dsimp only <;> omega

theorem log2_shiftLeft (hm : m ≠ 0) (k : ℕ) : (m <<< k).log2 = m.log2 + k := by
  induction k with
  | zero => rfl
  | succ k ih =>
    have hk : m <<< k ≠ 0 := by
      rw [Nat.shiftLeft_eq]
      exact Nat.mul_ne_zero hm (Nat.two_pow_pos k).ne'
    rw [Nat.shiftLeft_succ, Nat.log2_two_mul hk, ih, Nat.add_assoc]

/-- What is shifted out is what goes beyond 53 bits. -/
theorem shiftToTargetExponent_eq {e : ℤ} (h : -1022 ≤ m.log2 + e) :
    shiftToTargetExponent Format.binary64 m e .exact =
      ((⟨m, false, false⟩ : ExtendedMantissa) >>> (m.log2 - 52), e + (m.log2 - 52 : ℕ)) := by
  have hshift : (Format.binary64.targetExponent (totalExponent m e) - e).toNat = m.log2 - 52 := by
    simp only [Format.targetExponent, totalExponent, Format.mantissaBits, Format.minExponent]
    omega
  change ((⟨m, false, false⟩ : ExtendedMantissa) >>>
    (Format.binary64.targetExponent (totalExponent m e) - e).toNat,
    e + ((Format.binary64.targetExponent (totalExponent m e) - e).toNat : ℕ)) = _
  rw [hshift]

/-- A number with fewer bits is scaled up to 53 first. -/
theorem decreaseExponent_eq (m : ℕ) :
    decreaseExponent m 0 (Format.binary64.targetExponent (totalExponent m 0)) =
      (m <<< (52 - m.log2), -((52 - m.log2 : ℕ) : ℤ)) := by
  have hshift : (0 - Format.binary64.targetExponent (totalExponent m 0)).toNat = 52 - m.log2 := by
    simp only [Format.targetExponent, totalExponent, Format.mantissaBits, Format.minExponent]
    omega
  change (m <<< (0 - Format.binary64.targetExponent (totalExponent m 0)).toNat,
    0 - ((0 - Format.binary64.targetExponent (totalExponent m 0)).toNat : ℤ)) = _
  rw [hshift, Int.zero_sub]

/-- The scaled number is shifted back if it had more bits. -/
theorem shiftToTargetExponent_scaled (hm : m ≠ 0) :
    shiftToTargetExponent Format.binary64 (m <<< (52 - m.log2)) (-((52 - m.log2 : ℕ) : ℤ)) .exact =
      ((⟨m <<< (52 - m.log2), false, false⟩ : ExtendedMantissa) >>> (m.log2 - 52),
        (m.log2 : ℤ) - 52) := by
  have hlog := log2_shiftLeft hm (52 - m.log2)
  have hexcess : m.log2 + (52 - m.log2) - 52 = m.log2 - 52 := by omega
  rw [shiftToTargetExponent_eq (by omega), hlog, hexcess]
  refine Prod.ext rfl ?_
  dsimp only
  omega

/-- After rounding there is something to shift only if rounding has carried. -/
theorem shiftToTargetExponent_significand (hm : m ≠ 0) :
    (shiftToTargetExponent Format.binary64 (significand m) (m.log2 - 52) .exact).1.mantissa =
        (rounded m).1 ∧
      (shiftToTargetExponent Format.binary64 (significand m) (m.log2 - 52) .exact).2 =
        (rounded m).2 := by
  have hbounds := significand_bounds hm
  rw [rounded]
  split
  next htop =>
    have hlog : (2 ^ 53).log2 = 53 := Nat.log2_two_pow
    rw [htop, shiftToTargetExponent_eq (by omega), hlog]
    refine ⟨rfl, ?_⟩
    dsimp only
    omega
  next htop =>
    have hlog : (significand m).log2 = 52 :=
      (Nat.log2_eq_iff (by omega)).mpr ⟨hbounds.1, by omega⟩
    rw [shiftToTargetExponent_eq (by omega), hlog]
    exact ⟨rfl, Int.add_zero _⟩

/-- The float that a number is rounded to. -/
theorem ofNat_eq (hm : m ≠ 0) :
    UnpackedFloat.ofNat Format.binary64 m = .finite .positive (rounded m).1 (rounded m).2
      ((Nat.two_pow_pos 52).trans_le (rounded_bounds hm).1) := by
  have hpositive : compare (m : ℤ) 0 = .gt := compare_gt_iff_gt.mpr (by omega)
  have hbounds := rounded_bounds hm
  obtain ⟨hmantissa, hexponent⟩ := shiftToTargetExponent_significand hm
  rw [UnpackedFloat.ofNat, UnpackedFloat.ofInt, UnpackedFloat.normalize, hpositive]
  dsimp only
  rw [UnpackedFloat.round, Int.toNat_natCast, decreaseExponent_eq]
  dsimp only
  rw [roundWithAccuracy, shiftToTargetExponent_scaled hm]
  dsimp only
  rw [← significand, dif_neg (by omega)]
  simp only [hmantissa, hexponent]

/-! ### The bits of a float -/

/-- A float with a significand of 53 bits, on a scale that there is, comes back from its bits. -/
theorem unpack_pack {s : Sign} {e : ℤ} {h : 0 < m} (hm : 2 ^ 52 ≤ m ∧ m < 2 ^ 53)
    (he : -1074 ≤ e ∧ e ≤ 971) :
    UnpackedFloat.unpack Format.binary64 (UnpackedFloat.pack Format.binary64 (.finite s m e h)) =
      .finite s m e h := by
  have hlog : m.log2 = 52 := (Nat.log2_eq_iff (by omega)).mpr hm
  have hbias : (Format.binary64.exponentBias : ℤ) = 1023 := rfl
  have hpack : UnpackedFloat.pack Format.binary64 (.finite s m e h) =
      packComponents Format.binary64 s (BitVec.ofNat 11 (e + 1075).toNat) (BitVec.ofNat 52 m) := by
    have hbiased : e + 1023 + (52 : ℕ) = e + 1075 := by omega
    have hrange : ¬ 2 ^ 11 ≤ (e + 1075).toNat + 1 := by omega
    rw [UnpackedFloat.pack, hbias, hlog, hbiased, if_neg hrange]
    exact if_pos rfl
  have hexponent : (BitVec.ofNat 11 (e + 1075).toNat).toNat = (e + 1075).toNat :=
    Nat.mod_eq_of_lt (by omega)
  have hmantissa : (1#1 ++ BitVec.ofNat 52 m).toNat = m := by
    have hlow : m % 2 ^ 52 < 2 ^ 52 := Nat.mod_lt _ (Nat.two_pow_pos 52)
    rw [BitVec.toNat_append, BitVec.toNat_ofNat, BitVec.toNat_ofNat,
      ← Nat.shiftLeft_add_eq_or_of_lt hlow]
    omega
  have hne : ∀ b : BitVec 11, b.toNat ≠ (e + 1075).toNat →
      BitVec.ofNat 11 (e + 1075).toNat ≠ b := by
    rintro b hb rfl
    exact hb hexponent
  rw [hpack, UnpackedFloat.unpack]
  simp only [unpackExponent_packComponents, unpackMantissa_packComponents,
    unpackSign_packComponents, Sign.ofBitVec_toBitVec]
  rw [if_neg (hne _ _), if_neg (hne _ _)]
  · simp only [hmantissa, hexponent, hbias]
    congr 1
    omega
  · change 0 ≠ _
    omega
  · change 2047 ≠ _
    omega

end Stencil.FloatModel
