import Conveyor.Proofs.Binary64.Rounding

/-!
# The order of doubles

The doubles that are no NaN stand in one line, the infinities where the next doubles beyond the
largest ones would be. Comparing two of them is comparing their places.
-/

namespace Conveyor.Binary64

variable {x y z : Binary64}

/-- A finite number in rational numbers. -/
def value (x : Binary64) : ℚ := x.signed * 2 ^ x.scale

/-- The power of two beyond all finite numbers. -/
def limit : ℚ := 2 ^ (1024 : Int)

/-- Where a number stands in the order. -/
def rank (x : Binary64) : ℚ :=
  if x.isFinite then x.value else if x.negative then -limit else limit

theorem limit_pos : 0 < limit := by
  unfold limit
  positivity

theorem finite_or_infinite (hx : x.isNan = false) :
    x.isFinite = true ∨ x.isFinite = false ∧ x.isInfinite = true := by
  simp only [isNan, isFinite, isInfinite] at *
  by_cases hexponent : x.exponent.val = 2047 <;> simp_all

theorem isNan_eq_false (hx : x.isFinite = true) : x.isNan = false := by
  simp_all [isFinite, isNan]

theorem isInfinite_eq_false (hx : x.isFinite = true) : x.isInfinite = false := by
  simp_all [isFinite, isInfinite]

theorem abs_signed (x : Binary64) : |(x.signed : ℚ)| = x.significand := by
  unfold signed
  split <;> simp

/-- Finite numbers lie between the infinities. -/
theorem abs_value_lt (hx : x.isFinite = true) : |x.value| < limit := by
  obtain ⟨hbits, -, hmost, -⟩ := significand_cases hx
  have hpow : (0 : ℚ) < 2 ^ x.scale := by positivity
  have hm : (x.significand : ℚ) < 2 ^ 53 := by exact_mod_cast hbits
  rw [value, abs_mul, abs_signed, abs_of_pos hpow]
  calc (x.significand : ℚ) * 2 ^ x.scale
      < 2 ^ 53 * 2 ^ x.scale := by gcongr
    _ ≤ 2 ^ 53 * 2 ^ (971 : Int) := by
      gcongr
      exact one_le_two
    _ = limit := by
      rw [limit, show (1024 : Int) = 53 + 971 by norm_num, zpow_add₀ two_ne_zero]
      norm_num

theorem toRatio_pos (x : Binary64) : 0 < x.toRatio.2 := by
  unfold toRatio
  split
  · exact Nat.pos_of_ne_zero (by positivity)
  · exact Nat.one_pos

theorem toRatio_value (x : Binary64) : (x.toRatio.1 : ℚ) = x.value * x.toRatio.2 := by
  rw [toRatio, value]
  split
  · rename_i hneg
    obtain ⟨k, hk⟩ := Int.exists_eq_neg_ofNat (Int.le_of_lt hneg)
    rw [hk]
    simp
  · rename_i hneg
    obtain ⟨k, hk⟩ := Int.eq_ofNat_of_zero_le (Int.not_lt.mp hneg)
    rw [hk]
    simp

theorem compareRatio_toRatio (x y : Binary64) :
    compareRatio x.toRatio y.toRatio = compare x.value y.value := by
  have hxpos : (0 : ℚ) < x.toRatio.2 := by exact_mod_cast x.toRatio_pos
  have hypos : (0 : ℚ) < y.toRatio.2 := by exact_mod_cast y.toRatio_pos
  have hpos : (0 : ℚ) < x.toRatio.2 * y.toRatio.2 := by positivity
  have hleft : ((x.toRatio.1 * y.toRatio.2 : Int) : ℚ)
      = x.value * (x.toRatio.2 * y.toRatio.2) := by
    push_cast
    rw [toRatio_value, mul_assoc]
  have hright : ((y.toRatio.1 * x.toRatio.2 : Int) : ℚ)
      = y.value * (x.toRatio.2 * y.toRatio.2) := by
    push_cast
    rw [toRatio_value, mul_assoc, mul_comm (y.toRatio.2 : ℚ)]
  rw [compareRatio]
  rcases lt_trichotomy x.value y.value with h | h | h
  · rw [compare_lt_iff_lt.mpr h, compare_lt_iff_lt, ← Int.cast_lt (R := ℚ), hleft, hright]
    exact mul_lt_mul_of_pos_right h hpos
  · rw [compare_eq_iff_eq.mpr h, compare_eq_iff_eq, ← Int.cast_inj (α := ℚ), hleft, hright, h]
  · rw [compare_gt_iff_gt.mpr h, compare_gt_iff_gt, ← Int.cast_lt (R := ℚ), hleft, hright]
    exact mul_lt_mul_of_pos_right h hpos

/-- Comparing two numbers is comparing their places. -/
theorem compare?_eq (hx : x.isNan = false) (hy : y.isNan = false) :
    x.compare? y = some (compare x.rank y.rank) := by
  rw [compare?, hx, hy, Bool.or_false, if_neg Bool.false_ne_true]
  rcases finite_or_infinite hx with hxf | ⟨hxf, hxi⟩ <;>
    rcases finite_or_infinite hy with hyf | ⟨hyf, hyi⟩
  · simp [hxf, hyf, rank, compareRatio_toRatio]
  · obtain ⟨hlow, hhigh⟩ := abs_lt.mp (abs_value_lt hxf)
    cases hneg : y.negative
    · simp [hxf, hyf, isInfinite_eq_false hxf, rank, hneg, compare_lt_iff_lt.mpr hhigh]
    · simp [hxf, hyf, isInfinite_eq_false hxf, rank, hneg, compare_gt_iff_gt.mpr hlow]
  · obtain ⟨hlow, hhigh⟩ := abs_lt.mp (abs_value_lt hyf)
    cases hneg : x.negative
    · simp [hxf, hyf, hxi, isInfinite_eq_false hyf, rank, hneg, compare_gt_iff_gt.mpr hhigh]
    · simp [hxf, hyf, hxi, isInfinite_eq_false hyf, rank, hneg, compare_lt_iff_lt.mpr hlow]
  · have hopposite : -limit < limit := neg_lt_self limit_pos
    cases hnegx : x.negative <;> cases hnegy : y.negative <;>
      simp [hxf, hyf, hxi, hyi, rank, hnegx, hnegy, compare_lt_iff_lt.mpr hopposite,
        compare_gt_iff_gt.mpr hopposite]

theorem lt_iff (hx : x.isNan = false) (hy : y.isNan = false) :
    x.lt y = true ↔ x.rank < y.rank := by
  rw [lt, compare?_eq hx hy]
  simp [compare_lt_iff_lt]

theorem le_iff (hx : x.isNan = false) (hy : y.isNan = false) :
    x.le y = true ↔ x.rank ≤ y.rank := by
  rw [le, compare?_eq hx hy]
  simp [compare_lt_iff_lt, le_iff_lt_or_eq]

/-- Of two numbers that are no NaN one is not above the other. -/
theorem lt_iff_not_le (hx : x.isNan = false) (hy : y.isNan = false) :
    y.lt x = true ↔ x.le y = false := by
  rw [lt_iff hy hx, ← Bool.not_eq_true, le_iff hx hy, not_le]

theorem not_lt_of_isNan_left (hx : x.isNan = true) : x.lt y = false := by
  simp [lt, compare?, hx]

theorem not_lt_of_isNan_right (hy : y.isNan = true) : x.lt y = false := by
  simp [lt, compare?, hy]

theorem isNan_of_lt (h : x.lt y = true) : x.isNan = false ∧ y.isNan = false := by
  refine ⟨Bool.eq_false_iff.mpr fun hx => ?_, Bool.eq_false_iff.mpr fun hy => ?_⟩
  · rw [not_lt_of_isNan_left hx] at h
    cases h
  · rw [not_lt_of_isNan_right hy] at h
    cases h

theorem lt_asymm (h : x.lt y = true) : y.lt x = false := by
  obtain ⟨hx, hy⟩ := isNan_of_lt h
  rw [← Bool.not_eq_true, lt_iff hy hx, not_lt]
  exact ((lt_iff hx hy).mp h).le

theorem lt_irrefl (x : Binary64) : x.lt x = false := by
  cases h : x.lt x with
  | false => rfl
  | true => exact (h.symm.trans (lt_asymm h))

theorem isNan_of_le (h : x.le y = true) : x.isNan = false ∧ y.isNan = false := by
  cases hnan : x.isNan || y.isNan with
  | true =>
    rw [le, compare?, hnan, if_pos rfl] at h
    cases h
  | false => exact Bool.or_eq_false_iff.mp hnan

theorem le_of_le_of_rank (h : x.le y = true) (hz : z.isNan = false) (hyz : y.rank ≤ z.rank) :
    x.le z = true := by
  obtain ⟨hx, hy⟩ := isNan_of_le h
  exact (le_iff hx hz).mpr (((le_iff hx hy).mp h).trans hyz)

/-- Of two numbers of which one is less than the other, it is the one of the lower rank. -/
theorem lt_of_rank_le (apart : x.lt y = true ∨ y.lt x = true) (h : x.rank ≤ y.rank) :
    x.lt y = true := by
  rcases apart with hlt | hgt
  · exact hlt
  · obtain ⟨hy, hx⟩ := isNan_of_lt hgt
    exact absurd h (not_le.mpr ((lt_iff hy hx).mp hgt))

end Conveyor.Binary64
