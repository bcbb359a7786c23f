import Mathlib.Algebra.Order.Group.Int
import Mathlib.Algebra.Order.Monoid.Prod
import Mathlib.Data.Prod.Lex
import Mathlib.Order.Compare
import Stencil.Value.Number
import Stencil.Proofs.Number.Rounding

/-!
# The order of numbers

Two integers are compared as such, but an integer and a float are compared as floats, and rounding
makes one float of many integers. So a float may lie between two integers neither of which it is
told apart from, and equality of numbers is not transitive. Their order is all the same
(`Number.compare?_lt_trans`).

To see that, floats are given **ranks**, places on one line, such that floats are compared as their
ranks are (`FloatModel.compare_eq_compare_rank`). Rounding keeps the order, though not strictly:
the ranks of the floats of integers ascend with the integers (`FloatModel.intRank_le`). So where
one of three numbers is no integer, one of two steps between them is a step between ranks, and the
other step does not undo it.
-/

namespace Stencil

namespace FloatModel

open Float.Model Float.Model.UnpackedFloat

variable {m n : ℕ}

/-! ### Ranks of floats -/

/-- A place of floats on one line. What is compared first is whether they are finite and on which
side of zero they are, then their scale, and then their significand. -/
abbrev Rank := ℤ ×ₗ ℤ ×ₗ ℤ

/-- The rank with these parts. -/
def Rank.of (side scale significand : ℤ) : Rank := toLex (side, toLex (scale, significand))

/-- The rank of a float. The two zeros share theirs, and not-a-number has none. -/
def rank? : UnpackedFloat → Option Rank
  | .notANumber => none
  | .zero _ => some 0
  | .finite .positive m e _ => some (.of 1 e m)
  | .finite .negative m e _ => some (-.of 1 e m)
  | .infinity .positive => some (.of 2 0 0)
  | .infinity .negative => some (-.of 2 0 0)

/-- The order of two ranks, if there are both. -/
def compareRanks? : Option Rank → Option Rank → Option Ordering
  | some r, some r' => some (compare r r')
  | _, _ => none

theorem Rank.compare_of (a b c a' b' c' : ℤ) :
    compare (Rank.of a b c) (Rank.of a' b' c') =
      (compare a a').then ((compare b b').then (compare c c')) := by
  rw [Rank.of, Rank.of, Prod.Lex.compare_def]
  simp only [compareLex, compareOn, ofLex_toLex, Prod.Lex.compare_def]

theorem Rank.of_le_of {a b c b' c' : ℤ} :
    Rank.of a b c ≤ Rank.of a b' c' ↔ b < b' ∨ b = b' ∧ c ≤ c' := by
  simp only [Rank.of, Prod.Lex.toLex_le_toLex, lt_irrefl, true_and, false_or]

theorem Rank.compare_neg_neg (r r' : Rank) : compare (-r) (-r') = (compare r r').swap := by
  have hanti : StrictAnti fun r : Rank => -r := fun _ _ => neg_lt_neg
  rw [← cmp_eq_compare, ← cmp_eq_compare, cmp_swap]
  exact hanti.cmp_map_eq r r'

theorem compare_natCast (m n : ℕ) : compare (m : ℤ) n = compare m n := by
  have hmono : StrictMono (Nat.cast : ℕ → ℤ) := fun _ _ => Int.ofNat_lt.mpr
  rw [← cmp_eq_compare, ← cmp_eq_compare]
  exact hmono.cmp_map_eq m n

/-- **Floats are compared as their ranks are.** -/
theorem compare_eq_compare_rank (u v : UnpackedFloat) :
    u.compare v = compareRanks? (rank? u) (rank? v) := by
  -- only for two finite floats of one sign the side of zero does not decide
  rcases u with ⟨_ | _⟩ | _ | ⟨_ | _⟩ | ⟨_ | _, m, e, hm⟩ <;>
    rcases v with ⟨_ | _⟩ | _ | ⟨_ | _⟩ | ⟨_ | _, n, e', hn⟩ <;>
    simp only [rank?, compareRanks?, Rank.compare_neg_neg, Rank.compare_of] <;> try rfl
  case finite.negative.finite.negative | finite.positive.finite.positive =>
    rw [compare_natCast]
    rfl

/-- The rank of a float. -/
def floatRank? (x : Float) : Option Rank := rank? x.toModel.unpack

theorem lt_iff {x y : Float} :
    x < y ↔ compareRanks? (floatRank? x) (floatRank? y) = some .lt := by
  change decide (x.toModel < y.toModel) = true ↔ _
  rw [decide_eq_true_iff, floatRank?, floatRank?, ← compare_eq_compare_rank]
  change (x.toModel.unpack.compare y.toModel.unpack == some .lt) = true ↔ _
  exact beq_iff_eq

theorem beq_iff {x y : Float} :
    x == y ↔ compareRanks? (floatRank? x) (floatRank? y) = some .eq := by
  rw [floatRank?, floatRank?, ← compare_eq_compare_rank]
  change (x.toModel.unpack.compare y.toModel.unpack == some .eq) = true ↔ _
  exact beq_iff_eq

/-! ### Ranks of integers -/

/-- The rank of the float of a natural number. -/
def natRank (m : ℕ) : Rank := if m = 0 then 0 else .of 1 (rounded m).2 (rounded m).1

/-- The rank of the float of an integer. -/
def intRank (z : ℤ) : Rank := if z < 0 then -natRank z.natAbs else natRank z.natAbs

theorem natRank_nonneg (m : ℕ) : 0 ≤ natRank m := by
  rw [natRank]
  split
  · exact le_refl 0
  · exact Prod.Lex.toLex_le_toLex.mpr (.inl Int.zero_lt_one)

theorem natRank_le (h : m ≤ n) : natRank m ≤ natRank n := by
  by_cases hm : m = 0
  · rw [natRank, if_pos hm]
    exact natRank_nonneg n
  · have hn : n ≠ 0 := by omega
    rw [natRank, natRank, if_neg hm, if_neg hn, Rank.of_le_of, Nat.cast_le]
    exact rounded_le hm h

/-- **Rounding keeps the order of integers.** -/
theorem intRank_le {z w : ℤ} (h : z ≤ w) : intRank z ≤ intRank w := by
  rw [intRank, intRank]
  split <;> split
  · exact neg_le_neg (natRank_le (by omega))
  · exact (neg_nonpos.mpr (natRank_nonneg _)).trans (natRank_nonneg _)
  · omega
  · exact natRank_le (by omega)

theorem unpack_toFloat (n : UInt64) :
    n.toFloat.toModel.unpack = UnpackedFloat.ofNat Format.binary64 n.toNat ∧
      (-n.toFloat).toModel.unpack = (UnpackedFloat.ofNat Format.binary64 n.toNat).neg := by
  have hpacked : n.toFloat.toModel.unpack = UnpackedFloat.unpack Format.binary64
      (UnpackedFloat.pack Format.binary64 (UnpackedFloat.ofNat Format.binary64 n.toNat)) := rfl
  have hnegated : (-n.toFloat).toModel.unpack = UnpackedFloat.unpack Format.binary64
      (UnpackedFloat.pack Format.binary64 n.toFloat.toModel.unpack.neg) := rfl
  rw [hnegated, hpacked]
  by_cases hn : n.toNat = 0
  · rw [hn]
    exact ⟨rfl, rfl⟩
  · have hbounds := rounded_bounds hn
    have hlog : n.toNat.log2 < 64 := (Nat.log2_lt hn).mpr n.toNat_lt
    have hscale : -1074 ≤ (rounded n.toNat).2 ∧ (rounded n.toNat).2 ≤ 971 := by
      rw [rounded]
      split <;> dsimp only <;> omega
    rw [ofNat_eq hn, unpack_pack hbounds hscale]
    exact ⟨rfl, unpack_pack hbounds hscale⟩

theorem rank?_ofNat (m : ℕ) :
    rank? (UnpackedFloat.ofNat Format.binary64 m) = some (natRank m) ∧
      rank? (UnpackedFloat.ofNat Format.binary64 m).neg = some (-natRank m) := by
  by_cases hm : m = 0
  · rw [hm]
    exact ⟨rfl, rfl⟩
  · rw [ofNat_eq hm, natRank, if_neg hm]
    exact ⟨rfl, rfl⟩

theorem floatRank?_floatOf (n : Int64) :
    floatRank? (Number.floatOf n) = some (intRank n.toInt) := by
  have hsigned : n.toInt = if 2 * n.toUInt64.toNat < 2 ^ 64 then (n.toUInt64.toNat : ℤ)
      else n.toUInt64.toNat - (2 ^ 64 : ℕ) := n.toBitVec.toInt_eq_toNat_cond
  have hnegated : (-n).toUInt64.toNat = (2 ^ 64 - n.toUInt64.toNat) % 2 ^ 64 :=
    n.toBitVec.toNat_neg
  have hbits : n.toUInt64.toNat < 2 ^ 64 := n.toUInt64.toNat_lt
  rw [floatRank?, Number.floatOf, intRank]
  simp only [Int64.lt_iff_toInt_lt, Int64.toInt_zero]
  split
  next hneg =>
    have hsize : (-n).toUInt64.toNat = n.toInt.natAbs := by
      split at hsigned <;> omega
    rw [(unpack_toFloat _).2, hsize]
    exact (rank?_ofNat _).2
  next hneg =>
    have hsize : n.toUInt64.toNat = n.toInt.natAbs := by
      split at hsigned <;> omega
    rw [(unpack_toFloat _).1, hsize]
    exact (rank?_ofNat _).1

end FloatModel

namespace Number

open FloatModel

/-- The rank of a number, as a float. -/
def rank? (x : Number) : Option Rank := floatRank? x.toFloat

theorem compare?_int (a b : Int64) : compare? (.int a) (.int b) = some (compare a.toInt b.toInt) :=
  rfl

/-- Numbers that are not both integers are compared as their ranks are. -/
theorem compare?_eq_compareRanks {x y : Number} (h : ∀ a b, x = .int a → y ≠ .int b) :
    x.compare? y = compareRanks? x.rank? y.rank? := by
  have hchain : x.compare? y = if x.toFloat < y.toFloat then some .lt
      else if x.toFloat == y.toFloat then some .eq
      else if y.toFloat < x.toFloat then some .gt else none := by
    cases x with
    | float _ => rfl
    | int a =>
      cases y with
      | float _ => rfl
      | int b => exact absurd rfl (h a b rfl)
  rw [hchain, rank?, rank?]
  simp only [lt_iff, beq_iff]
  rcases floatRank? x.toFloat with _ | r <;> rcases floatRank? y.toFloat with _ | r'
  case some.some =>
    rcases lt_trichotomy r r' with hlt | rfl | hlt
    · simp [compareRanks?, compare_lt_iff_lt.mpr hlt]
    · simp [compareRanks?]
    · simp [compareRanks?, compare_gt_iff_gt.mpr hlt, compare_lt_iff_lt.mpr hlt]
  all_goals simp [compareRanks?]

theorem rank?_int (n : Int64) : rank? (.int n) = some (intRank n.toInt) :=
  floatRank?_floatOf n

/-- Turned round, two numbers compare the other way round. -/
theorem compare?_swap (x y : Number) : y.compare? x = (x.compare? y).map Ordering.swap := by
  by_cases hints : ∃ a b, x = .int a ∧ y = .int b
  · obtain ⟨a, b, rfl, rfl⟩ := hints
    rw [compare?_int, compare?_int, Option.map_some, ← Int.compare_swap]
  · rw [compare?_eq_compareRanks fun a b hx hy => hints ⟨a, b, hx, hy⟩,
      compare?_eq_compareRanks fun a b hy hx => hints ⟨b, a, hx, hy⟩]
    rcases x.rank? with _ | r <;> rcases y.rank? with _ | r'
    case some.some => exact congrArg some Std.OrientedOrd.eq_swap
    all_goals rfl

/-- A lesser number has no greater rank, and it has a lesser one if not both are integers. -/
theorem rank?_of_compare?_eq_lt {x y : Number} (h : x.compare? y = some .lt) :
    ∃ r r', x.rank? = some r ∧ y.rank? = some r' ∧ r ≤ r' ∧
      ((∃ a b, x = .int a ∧ y = .int b) ∨ r < r') := by
  by_cases hints : ∃ a b, x = .int a ∧ y = .int b
  · obtain ⟨a, b, rfl, rfl⟩ := hints
    have hlt : a.toInt < b.toInt := compare_lt_iff_lt.mp (Option.some_inj.mp h)
    exact ⟨_, _, rank?_int a, rank?_int b, intRank_le hlt.le, .inl ⟨a, b, rfl, rfl⟩⟩
  · rw [compare?_eq_compareRanks fun a b hx hy => hints ⟨a, b, hx, hy⟩] at h
    rcases hx : x.rank? with _ | r <;> rcases hy : y.rank? with _ | r' <;>
      rw [hx, hy, compareRanks?] at h
    case some.some =>
      have hlt : r < r' := compare_lt_iff_lt.mp (Option.some_inj.mp h)
      exact ⟨r, r', rfl, rfl, hlt.le, .inr hlt⟩
    all_goals exact absurd h.symm (Option.some_ne_none _)

/-- A number with a lesser rank is less, whether or not both are integers. -/
theorem compare?_eq_lt_of_rank {x y : Number} {r r' : Rank} (hx : x.rank? = some r)
    (hy : y.rank? = some r') (h : r < r') : x.compare? y = some .lt := by
  by_cases hints : ∃ a b, x = .int a ∧ y = .int b
  · obtain ⟨a, b, rfl, rfl⟩ := hints
    rw [rank?_int, Option.some_inj] at hx hy
    rw [compare?_int, compare_lt_iff_lt.mpr]
    by_contra hle
    have hback := intRank_le (not_lt.mp hle)
    rw [hx, hy] at hback
    exact absurd h (not_lt.mpr hback)
  · rw [compare?_eq_compareRanks fun a b hx hy => hints ⟨a, b, hx, hy⟩, hx, hy, compareRanks?,
      compare_lt_iff_lt.mpr h]

/-- **The order of numbers is transitive**, integers and floats mixed. -/
theorem compare?_lt_trans {x y z : Number} (hxy : x.compare? y = some .lt)
    (hyz : y.compare? z = some .lt) : x.compare? z = some .lt := by
  obtain ⟨r, s, hx, hy, hle, hstep⟩ := rank?_of_compare?_eq_lt hxy
  obtain ⟨s', t, hy', hz, hle', hstep'⟩ := rank?_of_compare?_eq_lt hyz
  obtain rfl : s = s' := Option.some_inj.mp (hy.symm.trans hy')
  rcases hstep with ⟨a, b, rfl, rfl⟩ | hlt
  · rcases hstep' with ⟨b', c, -, rfl⟩ | hlt'
    · have hab : a.toInt < b.toInt := compare_lt_iff_lt.mp (Option.some_inj.mp hxy)
      have hbc : b.toInt < c.toInt := compare_lt_iff_lt.mp (Option.some_inj.mp hyz)
      exact congrArg some (compare_lt_iff_lt.mpr (hab.trans hbc))
    · exact compare?_eq_lt_of_rank hx hz (hle.trans_lt hlt')
  · exact compare?_eq_lt_of_rank hx hz (hlt.trans_le hle')

end Number

end Stencil
