import Conveyor.Proofs.Binary64.Sum

/-!
# Powers of doubles

A whole number of at most 53 bits is a double, and any other number that is not negative has a double
next to it (`place`), from a certain number on an infinity (`ceiling`). A power is computed with more
bits than a double has, and what is lost on the way is so little that the double next to the result is
as good as that next to the power itself (`isNext_pow`).
-/

namespace Conveyor.Binary64

variable {x : Binary64} {k d n : Nat} {v v' : ℚ}

/-! ## Whole numbers -/

/-- The form of a number above zero. -/
theorem of_value_pos (hpos : 0 < x.value) :
    x.negative = false ∧ 0 < x.significand ∧ x.value = x.significand * 2 ^ x.scale := by
  have hpow : (0 : ℚ) < 2 ^ x.scale := by positivity
  have hsigned : 0 < x.signed := by
    by_contra hle
    have hcast : (x.signed : ℚ) ≤ 0 := by exact_mod_cast not_lt.mp hle
    exact hpos.not_ge (mul_nonpos_of_nonpos_of_nonneg hcast hpow.le)
  have hnegative : x.negative = false := by
    by_contra hneg
    rw [signed, if_pos (by simpa using hneg)] at hsigned
    omega
  rw [signed, hnegative, if_neg Bool.false_ne_true] at hsigned
  refine ⟨hnegative, by omega, ?_⟩
  rw [value, signed, hnegative, if_neg Bool.false_ne_true, Int.cast_natCast]

theorem value_nonneg (positive : x.negative = false) : 0 ≤ x.value := by
  rw [value, signed, positive, if_neg Bool.false_ne_true]
  positivity

/-- A double is what its own value is rounded to. -/
theorem roundsTo_value (positive : x.negative = false) : RoundsTo x.value x := by
  have hvalue : x.value = x.significand * 2 ^ x.scale := by
    rw [value, signed, positive, if_neg Bool.false_ne_true, Int.cast_natCast]
  have hpow : (0 : ℚ) < 2 ^ x.scale := by positivity
  have hquarters : (0 : ℚ) < x.quarters := by
    unfold quarters
    split <;> norm_num
  refine ⟨by nlinarith, by nlinarith, ?_⟩
  rintro (hlow | hhigh)
  · nlinarith
  · nlinarith

/-- Such a number is far below the powers of two that are no doubles. -/
theorem whole_lt_limit (hk : k < 2 ^ 53) : (k : ℚ) < limit := by
  calc (k : ℚ) < 2 ^ (53 : Int) := by
        rw [show (53 : Int) = ((53 : Nat) : Int) by norm_num, zpow_natCast]
        exact_mod_cast hk
    _ ≤ limit := zpow_le_zpow_right₀ one_le_two (by norm_num)

/-- A whole number of at most 53 bits is not rounded. -/
theorem rounded_whole (hpos : 0 < k) (hk : k < 2 ^ 53) : rounded k 1 = k := by
  have hscale := isScale_scaleFor hpos Nat.one_pos
  have hratio : ratio k 1 = k := by rw [ratio, Nat.cast_one, div_one]
  have hone : (1 : ℚ) ≤ k := by exact_mod_cast hpos
  have hbits : (k : ℚ) < 2 ^ 53 := by exact_mod_cast hk
  rw [hratio] at hscale
  rw [rounded]
  generalize scaleFor k 1 = q at hscale ⊢
  have hq : q ≤ 0 := by
    rcases hscale.above with hleast | habove
    · omega
    · have hbelow : (k : ℚ) < 2 ^ 53 * 2 ^ (0 : Int) := by simpa using hbits
      have hlt := two_zpow_lt habove hbelow
      omega
  obtain ⟨j, rfl⟩ := Int.exists_eq_neg_ofNat hq
  -- the significand is the number with zeros after it
  have hscaled : (roundHalfEven (scaleDown k 1 (-(j : Int))).1 (scaleDown k 1 (-(j : Int))).2 : ℚ) =
      k * 2 ^ j := by
    have hround : roundHalfEven (scaleDown k 1 (-(j : Int))).1 (scaleDown k 1 (-(j : Int))).2 =
        k * 2 ^ j := by
      refine roundHalfEven_scaled Nat.one_pos ?_ ?_ ?_
      all_goals rw [hratio, zpow_neg, zpow_natCast]; push_cast
      · field_simp
        linarith
      · field_simp
        linarith
      · field_simp
        rintro (h | h)
        · linarith
        · linarith
    exact_mod_cast hround
  rw [hscaled, mul_assoc, zpow_neg, zpow_natCast, mul_inv_cancel₀ (by positivity), mul_one]
  exact min_eq_left (whole_lt_limit hk).le

theorem ofInt_natCast (hpos : 0 < k) : ofInt k = ofRatio false k 1 := by
  have hzero : (k : Int) ≠ 0 := by omega
  have hsign : ¬ (k : Int) < 0 := by omega
  rw [ofInt, ofSigned, if_neg hzero, decide_eq_false hsign, Int.natAbs_natCast]

/-- A whole number of at most 53 bits is a double. -/
theorem ofInt_whole (hpos : 0 < k) (hk : k < 2 ^ 53) :
    (ofInt k).isFinite = true ∧ (ofInt k).negative = false ∧ (ofInt k).value = k := by
  have hrank := rank_ofRatio hpos Nat.one_pos false
  rw [if_neg Bool.false_ne_true, rounded_whole hpos hk, ← ofInt_natCast hpos] at hrank
  have hkpos : (0 : ℚ) < k := by exact_mod_cast hpos
  have hlimit := whole_lt_limit hk
  unfold rank at hrank
  split at hrank
  · rename_i hfinite
    exact ⟨hfinite, (of_value_pos (hrank ▸ hkpos)).1, hrank⟩
  · split at hrank
    · linarith
    · linarith

/-- A fraction that comes to such a number is rounded to it. -/
theorem ofRatio_whole (hpos : 0 < k) (hk : k < 2 ^ 53) (hd : 0 < d) :
    ofRatio false (d * k) d = ofInt k := by
  obtain ⟨hfinite, hnegative, hvalue⟩ := ofInt_whole hpos hk
  have hratio : ratio (d * k) d = (ofInt k).value := by
    rw [hvalue, ratio]
    push_cast
    field_simp
  have hround := roundsTo_value hnegative
  rw [← hratio] at hround
  rw [ofRatio_eq hfinite false (Nat.mul_pos hd hpos) hd hround, ← hnegative]

/-- A double that is a whole number is its own integer part. -/
theorem truncate_of_value {n : Int} (h : x.value = n) : x.truncate = n := by
  have hpos := x.toRatio_pos
  have hratio : x.toRatio.1 = n * x.toRatio.2 := by
    have hcast := x.toRatio_value
    rw [h] at hcast
    exact_mod_cast hcast
  show x.toRatio.1.tdiv x.toRatio.2 = n
  rw [hratio]
  exact Int.mul_tdiv_cancel n (by omega)

/-- Nothing is left of a number that is taken away from itself. -/
theorem sub_self (hx : x.isFinite = true) : ∃ z, x.sub x = ⟨z, 0, 0⟩ := by
  have hnan : x.isNan = false ∧ x.neg.isNan = false := by simp_all [isFinite, isNan, neg]
  have hinfinite : x.isInfinite = false ∧ x.neg.isInfinite = false := by
    simp_all [isFinite, isInfinite, neg]
  have hopposite : x.neg.toRatio = (-x.toRatio.1, x.toRatio.2) := by
    have hsigned : x.neg.signed = -x.signed := by
      cases hneg : x.negative <;> simp [signed, neg, hneg, significand]
    have hscale : x.neg.scale = x.scale := rfl
    unfold toRatio
    rw [hsigned, hscale]
    split
    · rfl
    · rw [Int.neg_mul]
  refine ⟨x.negative && x.neg.negative, ?_⟩
  rw [sub, add, hnan.1, hnan.2, hinfinite.1, hinfinite.2, hopposite]
  simp only [Bool.or_self, Bool.false_eq_true, if_false]
  rw [Int.neg_mul, Int.add_right_neg, ofSigned, if_pos rfl]

/-! ## The double next to a number -/

/-- The place of the double next to a number that is not negative. -/
def place (v : ℚ) : ℚ := rounded v.num.natAbs v.den

/-- The double is the one next to a number that is not negative. -/
structure IsNext (x : Binary64) (v : ℚ) : Prop where
  isNan : x.isNan = false
  rank : x.rank = place v

/-- The number halfway between the largest double and the power of two behind it. From there on a
number is rounded to an infinity. -/
def ceiling : ℚ := 18014398509481983 * 2 ^ (970 : Int)

theorem ratio_num_den (hv : 0 < v) : ratio v.num.natAbs v.den = v := by
  have hnum : 0 < v.num := Rat.num_pos.mpr hv
  have hcast : ((v.num.natAbs : Nat) : ℚ) = v.num := by
    rw [Nat.cast_natAbs, abs_of_pos hnum]
  rw [ratio, hcast, Rat.num_div_den]

theorem rounded_eq_place (hn : 0 < n) (hd : 0 < d) : rounded n d = place (ratio n d) := by
  have hpos : 0 < ratio n d := div_pos (by exact_mod_cast hn) (by exact_mod_cast hd)
  have hnum : 0 < (ratio n d).num.natAbs := Int.natAbs_pos.mpr (Rat.num_pos.mpr hpos).ne'
  have hden : 0 < (ratio n d).den := (ratio n d).den_pos
  have hratio := ratio_num_den hpos
  exact le_antisymm (rounded_mono hn hd hnum hden hratio.ge) (rounded_mono hnum hden hn hd hratio.le)

theorem place_zero : place 0 = 0 := by
  have hzero : scaleDown 0 1 (scaleFor 0 1) = (0, 1) := by decide +kernel
  have hround : roundHalfEven 0 1 = 0 := by decide
  have hnum : (0 : ℚ).num.natAbs = 0 := rfl
  have hden : (0 : ℚ).den = 1 := rfl
  rw [place, hnum, hden, rounded, hzero, hround, Nat.cast_zero, zero_mul]
  exact min_eq_left limit_pos.le

theorem place_nonneg (v : ℚ) : 0 ≤ place v := rounded_nonneg _ _

theorem place_mono (hv : 0 ≤ v) (h : v ≤ v') : place v ≤ place v' := by
  rcases hv.eq_or_lt with rfl | hpos
  · rw [place_zero]
    exact place_nonneg v'
  · have hpos' : 0 < v' := hpos.trans_le h
    refine rounded_mono (Int.natAbs_pos.mpr (Rat.num_pos.mpr hpos).ne') v.den_pos
      (Int.natAbs_pos.mpr (Rat.num_pos.mpr hpos').ne') v'.den_pos ?_
    rwa [ratio_num_den hpos, ratio_num_den hpos']

theorem isNan_assemble (negative : Bool) (m : Nat) (q : Int) :
    (assemble negative m q).isNan = false := by
  have hrange : ∀ (m : Nat) (q : Int), (if m < 4503599627370496 then ⟨negative, 0, Fin.ofNat _ m⟩
      else if 971 < q then infinity negative
      else ⟨negative, Fin.ofNat _ (q + 1075).toNat, Fin.ofNat _ (m - 4503599627370496)⟩ :
        Binary64).isNan = false := by
    intro m q
    split
    · rfl
    · split
      · rfl
      · rename_i hq
        have hexponent : ((Fin.ofNat 2048 (q + 1075).toNat : Fin _) : Nat) = (q + 1075).toNat :=
          Nat.mod_eq_of_lt (by omega)
        have hfinite : (q + 1075).toNat ≠ 2047 := by omega
        show (decide (((Fin.ofNat 2048 (q + 1075).toNat : Fin _) : Nat) = 2047) && _) = false
        rw [hexponent, decide_eq_false hfinite, Bool.false_and]
  exact hrange _ _

theorem isNan_ofRatio (negative : Bool) (n d : Nat) : (ofRatio negative n d).isNan = false := by
  unfold ofRatio
  split
  · rfl
  · exact isNan_assemble negative _ _

theorem isNan_ofSigned (zeroSign : Bool) (n : Int) (d : Nat) :
    (ofSigned zeroSign n d).isNan = false := by
  unfold ofSigned
  split
  · rfl
  · exact isNan_ofRatio _ _ _

/-- A sum is a number if one of the two is finite and the other is a number. -/
theorem isNan_add {y : Binary64} (hx : x.isFinite = true) (hy : y.isNan = false) :
    (x.add y).isNan = false := by
  rw [add, isNan_eq_false hx, hy, isInfinite_eq_false hx]
  cases hinfinite : y.isInfinite with
  | true => exact hy
  | false => exact isNan_ofSigned _ _ _

theorem isNan_mul {y : Binary64} (hx : x.isFinite = true) (hy : y.isFinite = true) :
    (x.mul y).isNan = false := by
  rw [mul, isNan_eq_false hx, isNan_eq_false hy, isInfinite_eq_false hx, isInfinite_eq_false hy]
  exact isNan_ofRatio _ _ _

theorem isNext_ofRatio (hn : 0 < n) (hd : 0 < d) : (ofRatio false n d).IsNext (ratio n d) := by
  refine ⟨isNan_ofRatio false n d, ?_⟩
  rw [rank_ofRatio hn hd, if_neg Bool.false_ne_true, rounded_eq_place hn hd]

/-- A finite number that is not negative is next to itself. -/
theorem place_value (hx : x.isFinite = true) (hv : 0 ≤ x.value) : place x.value = x.value := by
  rcases hv.eq_or_lt with hzero | hpos
  · rw [← hzero, place_zero]
  · obtain ⟨hnegative, -, -⟩ := of_value_pos hpos
    have hround := roundsTo_value hnegative
    rw [← ratio_num_den hpos] at hround
    have hnum : 0 < x.value.num.natAbs := Int.natAbs_pos.mpr (Rat.num_pos.mpr hpos).ne'
    have hrank := rank_ofRatio hnum x.value.den_pos false
    rw [ofRatio_eq hx false hnum x.value.den_pos hround, if_neg Bool.false_ne_true,
      ← hnegative, rank, if_pos hx] at hrank
    exact hrank.symm

/-- A natural number has a double next to it. -/
theorem isNext_ofInt (hn : 0 < n) : (ofInt n).IsNext n := by
  rw [ofInt_natCast hn]
  have hnext := isNext_ofRatio hn Nat.one_pos
  rwa [ratio, Nat.cast_one, div_one] at hnext

/-- The double next to a natural number is a whole number. -/
theorem exists_value_ofInt (hn : 0 < n) (hfinite : (ofInt n).isFinite = true) :
    ∃ k : Nat, 0 < k ∧ (ofInt n).value = k := by
  rcases Nat.lt_or_ge n (2 ^ 53) with hlt | hge
  · exact ⟨n, hn, (ofInt_whole hn hlt).2.2⟩
  · have hscale := isScale_scaleFor hn Nat.one_pos
    obtain ⟨-, hnormal⟩ := significand_rounded hn Nat.one_pos
    have hrank := rank_ofRatio hn Nat.one_pos false
    have hlt := (abs_lt.mp (abs_value_lt hfinite)).2
    rw [← ofInt_natCast hn, if_neg Bool.false_ne_true, rank, if_pos hfinite, rounded] at hrank
    have hratio : ratio n 1 = n := by rw [ratio, Nat.cast_one, div_one]
    rw [hratio] at hscale
    generalize roundHalfEven (scaleDown n 1 (scaleFor n 1)).1 (scaleDown n 1 (scaleFor n 1)).2 = m
      at hnormal hrank
    generalize scaleFor n 1 = q at hscale hnormal hrank
    have hq : 0 ≤ q := by
      by_contra hneg
      have hpow : (2 : ℚ) ^ q ≤ 2 ^ (0 : Int) := zpow_le_zpow_right₀ one_le_two (by omega)
      have hlarge : (2 : ℚ) ^ 53 ≤ n := by exact_mod_cast hge
      have hbelow := hscale.below
      rw [zpow_zero] at hpow
      linarith
    obtain ⟨e, rfl⟩ := Int.eq_ofNat_of_zero_le hq
    have hm : 0 < m := by
      have hlarge := hnormal.resolve_left (by omega)
      omega
    refine ⟨m * 2 ^ e, Nat.mul_pos hm (Nat.two_pow_pos e), ?_⟩
    rw [zpow_natCast] at hrank
    rcases min_choice ((m : ℚ) * 2 ^ e) limit with hmin | hmin
    · rw [hrank, hmin]
      push_cast
      rfl
    · rw [hmin] at hrank
      exact absurd hrank hlt.ne

/-- Nothing changes when zero is added to a number that is not negative. -/
theorem rank_add_zero (hx : x.isFinite = true) (hv : 0 ≤ x.value) :
    (x.add zero).isNan = false ∧ (x.add zero).rank = x.value := by
  obtain ⟨z, n, d, hsum, hd, hvalue⟩ := add_of_finite hx (rfl : zero.isFinite = true)
  have hdq : (0 : ℚ) < d := by exact_mod_cast hd
  have hzero : zero.value = 0 := by simp [value, signed, significand, zero]
  rw [hzero, add_zero] at hvalue
  have hn : 0 ≤ n := by
    rw [← hvalue, le_div_iff₀ hdq, zero_mul] at hv
    exact_mod_cast hv
  rw [hsum]
  refine ⟨isNan_ofSigned _ _ _, ?_⟩
  · rw [rank_ofSigned z n hd, if_neg hn.not_gt]
    split
    · rename_i hnone
      rw [← hvalue, hnone, Int.cast_zero, zero_div]
    · have hnat : 0 < n.natAbs := by omega
      have hratio : ratio n.natAbs d = x.value := by
        rw [← hvalue, ratio, Nat.cast_natAbs, abs_of_nonneg hn]
      rw [rounded_eq_place hnat hd, hratio, place_value hx hv]

/-! ## Overflow -/

theorem limit_eq : limit = 18014398509481984 * 2 ^ (970 : Int) := by
  rw [limit, show (1024 : Int) = 54 + 970 by norm_num, zpow_add₀ two_ne_zero]
  norm_num

theorem ceiling_pos : 0 < ceiling := mul_pos (by norm_num) (zpow_pos two_pos 970)

theorem one_lt_ceiling : 1 < ceiling := by
  have hpow : (1 : ℚ) ≤ 2 ^ (970 : Int) := one_le_zpow₀ one_le_two (by decide)
  rw [ceiling]
  generalize (2 : ℚ) ^ (970 : Int) = p at hpow
  linarith

theorem ceiling_lt_limit : ceiling < limit := by
  rw [limit_eq, ceiling]
  exact mul_lt_mul_of_pos_right (by norm_num) (zpow_pos two_pos 970)

/-- The largest double. -/
def largest : Binary64 := ⟨false, 2046, 4503599627370495⟩

theorem two_zpow_scale_largest : (2 : ℚ) ^ largest.scale = 2 * 2 ^ (970 : Int) := by
  have hscale : largest.scale = 1 + 970 := by decide +kernel
  rw [hscale, zpow_add₀ two_ne_zero, zpow_one]

theorem value_largest : largest.value = 18014398509481982 * 2 ^ (970 : Int) := by
  have hsigned : largest.signed = 9007199254740991 := by decide +kernel
  rw [value, hsigned, two_zpow_scale_largest, ← mul_assoc]
  norm_num

/-- A number that is too large to be a double, but not so large as to be rounded to an infinity. -/
theorem roundsTo_largest (hlow : largest.value ≤ v) (hhigh : v < ceiling) : RoundsTo v largest := by
  have hsignificand : largest.significand = 9007199254740991 := by decide +kernel
  have hquarters : largest.quarters = 2 := by decide +kernel
  have hpow : (0 : ℚ) < 2 ^ (970 : Int) := zpow_pos two_pos 970
  have hscale := two_zpow_scale_largest
  rw [value_largest] at hlow
  rw [ceiling] at hhigh
  generalize (2 : ℚ) ^ (970 : Int) = t at *
  constructor
  · rw [hsignificand, hscale, hquarters]
    push_cast
    linarith only [hlow, hpow]
  · rw [hsignificand, hscale]
    push_cast
    linarith only [hhigh]
  · rw [hsignificand, hscale, hquarters]
    push_cast
    rintro (h | h)
    · linarith only [hlow, hpow, h]
    · linarith only [hhigh, h]

theorem place_of_lt_ceiling (hv : 0 ≤ v) (h : v < ceiling) : place v < limit := by
  have hfinite : largest.isFinite = true := by decide +kernel
  have hlargest : largest.rank < limit := by
    rw [rank, if_pos hfinite]
    exact (abs_lt.mp (abs_value_lt hfinite)).2
  have hvalue : 0 < largest.value ∧ largest.value < ceiling := by
    rw [value_largest, ceiling]
    exact ⟨mul_pos (by norm_num) (zpow_pos two_pos 970),
      mul_lt_mul_of_pos_right (by norm_num) (zpow_pos two_pos 970)⟩
  -- what is not below the largest double is rounded to it
  have hmost : place (max v largest.value) = largest.rank := by
    have hpos : 0 < max v largest.value := lt_max_of_lt_right hvalue.1
    have hround := roundsTo_largest (le_max_right v _) (max_lt h hvalue.2)
    rw [← ratio_num_den hpos] at hround
    have hnum : 0 < (max v largest.value).num.natAbs :=
      Int.natAbs_pos.mpr (Rat.num_pos.mpr hpos).ne'
    have heq := ofRatio_eq hfinite false hnum (max v largest.value).den_pos hround
    have hrank := rank_ofRatio hnum (max v largest.value).den_pos false
    rw [heq, if_neg Bool.false_ne_true] at hrank
    exact hrank.symm
  calc place v ≤ place (max v largest.value) := place_mono hv (le_max_left _ _)
    _ = largest.rank := hmost
    _ < limit := hlargest

theorem place_of_ceiling_le (h : ceiling ≤ v) : place v = limit := by
  have hratio : ∀ e : Nat, ratio (18014398509481983 * 2 ^ e) 1 =
      18014398509481983 * 2 ^ (e : Int) := by
    intro e
    rw [ratio, Nat.cast_one, div_one, Nat.cast_mul, Nat.cast_pow, zpow_natCast]
    norm_num
  have hceiling : ceiling = ratio (18014398509481983 * 2 ^ 970) 1 := by
    rw [hratio, ceiling]
    norm_num
  have hpos : ∀ e : Nat, 0 < 18014398509481983 * 2 ^ e := fun e => by positivity
  have hinfinite : ofRatio false (18014398509481983 * 2 ^ 970) 1 = infinity false := by
    decide +kernel
  have hplace : place ceiling = limit := by
    have hrank := rank_ofRatio (hpos 970) Nat.one_pos false
    rw [hinfinite, rank_infinity, if_neg Bool.false_ne_true, if_neg Bool.false_ne_true,
      rounded_eq_place (hpos 970) Nat.one_pos, ← hceiling] at hrank
    exact hrank.symm
  refine le_antisymm (min_le_right _ _) ?_
  rw [← hplace]
  exact place_mono ceiling_pos.le h

/-- A number below the least double by half is rounded to zero. -/
theorem place_of_tiny (hpos : 0 < v) (h : v ≤ 2 ^ (-1075 : Int)) : place v = 0 := by
  have hround : RoundsTo (ratio v.num.natAbs v.den) zero := by
    have hstep : (2 : ℚ) ^ zero.scale = 2 * 2 ^ (-1075 : Int) := by
      rw [show zero.scale = 1 + -1075 from rfl, zpow_add₀ two_ne_zero, zpow_one]
    have hsignificand : zero.significand = 0 := rfl
    have hquarters : zero.quarters = 2 := rfl
    have hpow : (0 : ℚ) < 2 ^ (-1075 : Int) := zpow_pos two_pos _
    rw [ratio_num_den hpos]
    generalize (2 : ℚ) ^ (-1075 : Int) = t at *
    refine ⟨?_, ?_, fun _ => rfl⟩
    · rw [hstep, hsignificand, hquarters]
      push_cast
      linarith only [hpos, hpow]
    · rw [hstep, hsignificand]
      push_cast
      linarith only [h, hpow]
  have hnum : 0 < v.num.natAbs := Int.natAbs_pos.mpr (Rat.num_pos.mpr hpos).ne'
  have hrank := rank_ofRatio hnum v.den_pos false
  rw [ofRatio_eq rfl false hnum v.den_pos hround, if_neg Bool.false_ne_true] at hrank
  exact hrank.symm.trans (rank_zero false)

theorem IsNext.isFinite_iff (h : x.IsNext v) (hv : 0 ≤ v) : x.isFinite = true ↔ v < ceiling := by
  obtain ⟨hnan, hrank⟩ := h
  constructor
  · intro hx
    by_contra hle
    rw [place_of_ceiling_le (not_lt.mp hle), Binary64.rank, if_pos hx] at hrank
    exact hrank.ge.not_gt (abs_lt.mp (abs_value_lt hx)).2
  · intro hlt
    have hplace := place_of_lt_ceiling hv hlt
    have hnonneg := place_nonneg v
    have hpos := limit_pos
    by_contra hx
    rw [← hrank, Binary64.rank, if_neg hx] at hplace hnonneg
    split at hplace
    · rename_i hneg
      rw [if_pos hneg] at hnonneg
      exact (neg_lt_zero.mpr hpos).not_ge hnonneg
    · exact hplace.ne rfl

/-! ## Powers -/

namespace Wide

variable {a b w : Wide} {fuel : Nat}

def value (w : Wide) : ℚ := w.bits * 2 ^ w.scale

/-- The part of a number that is lost at most when bits are dropped. -/
def slack : ℚ := 1 / 2 ^ 639

theorem slack_pos : 0 < slack := by
  unfold slack
  positivity

theorem slack_lt_one : slack < 1 :=
  (div_lt_one (by positivity)).mpr (one_lt_pow₀ one_lt_two (by decide))

theorem value_nonneg (w : Wide) : 0 ≤ w.value := by
  unfold value
  positivity

/-- So much is left of a whole number whose last bits are dropped. -/
theorem le_div_mul {m : Nat} (s : Nat) (hs : m.log2 + 1 - 640 = s) :
    (m : ℚ) * (1 - slack) ≤ (m / 2 ^ s * 2 ^ s : Nat) := by
  have hslack := slack_pos
  rcases Nat.eq_zero_or_pos s with rfl | hpos
  · rw [pow_zero, Nat.div_one, Nat.mul_one]
    exact mul_le_of_le_one_right (Nat.cast_nonneg m) (by linarith)
  · have hlow : 2 ^ (s + 639) ≤ m := by
      rw [show s + 639 = m.log2 by omega]
      refine Nat.log2_self_le ?_
      rintro rfl
      simp at hs
      omega
    have hlost : (2 : ℚ) ^ s ≤ m * slack := by
      have hcast : (2 : ℚ) ^ s * 2 ^ 639 ≤ m := by
        rw [← pow_add]
        exact_mod_cast hlow
      rw [slack, mul_one_div]
      exact (le_div_iff₀ (by positivity)).mpr hcast
    have hrest : (m : ℚ) < (m / 2 ^ s * 2 ^ s : Nat) + 2 ^ s := by
      exact_mod_cast Nat.lt_div_mul_add (Nat.two_pow_pos s)
    linarith

/-- Dropping bits makes a number smaller, but by no more than the slack. -/
theorem shorten_bounds (w : Wide) :
    w.value * (1 - slack) ≤ (shorten w).value ∧ (shorten w).value ≤ w.value := by
  have hpow : (0 : ℚ) < 2 ^ w.scale := by positivity
  unfold shorten width
  generalize hs : w.bits.log2 + 1 - 640 = s
  have hvalue : (⟨w.bits / 2 ^ s, w.scale + s⟩ : Wide).value =
      ((w.bits / 2 ^ s * 2 ^ s : Nat) : ℚ) * 2 ^ w.scale := by
    rw [value, zpow_add₀ two_ne_zero, zpow_natCast]
    push_cast
    ring
  simp only
  rw [hvalue, value, mul_right_comm]
  constructor
  · exact mul_le_mul_of_nonneg_right (le_div_mul s hs) hpow.le
  · have hle : w.bits / 2 ^ s * 2 ^ s ≤ w.bits := Nat.div_mul_le_self _ _
    gcongr

theorem value_mul (a b : Wide) : (⟨a.bits * b.bits, a.scale + b.scale⟩ : Wide).value =
    a.value * b.value := by
  rw [value, value, value, zpow_add₀ two_ne_zero]
  push_cast
  ring

theorem mul_bounds (a b : Wide) :
    a.value * b.value * (1 - slack) ≤ (mul a b).value ∧ (mul a b).value ≤ a.value * b.value := by
  have hshorten := shorten_bounds ⟨a.bits * b.bits, a.scale + b.scale⟩
  rwa [value_mul] at hshorten

/-- A power is not too large, and too small by no more than the slack for every product on the way
to it. -/
theorem pow_bounds {n : Nat} (hn : n < 2 ^ fuel) (a : Wide) :
    a.value ^ n * (1 - slack) ^ (2 * n) ≤ (pow fuel a n).value ∧
      (pow fuel a n).value ≤ a.value ^ n := by
  have hr : 0 ≤ 1 - slack := sub_nonneg.mpr slack_lt_one.le
  have hr' : 1 - slack ≤ 1 := sub_le_self 1 slack_pos.le
  induction fuel generalizing a n with
  | zero =>
    obtain rfl : n = 0 := by simpa using hn
    simp [pow, value]
  | succ fuel ih =>
    rw [pow]
    split
    · rename_i hzero
      simp [hzero, value]
    · have ha := a.value_nonneg
      obtain ⟨hlow, hhigh⟩ := mul_bounds a a
      obtain ⟨hhalf, hhalf'⟩ := ih (n := n / 2) (by omega) (mul a a)
      generalize pow fuel (mul a a) (n / 2) = half at hhalf hhalf' ⊢
      have hsplit : 2 * (n / 2) + n % 2 = n := Nat.div_add_mod n 2
      generalize n / 2 = h at hhalf hhalf' hsplit
      -- the half power, from both sides
      have hupper : half.value ≤ a.value ^ (2 * h) :=
        calc half.value ≤ (mul a a).value ^ h := hhalf'
          _ ≤ (a.value * a.value) ^ h := pow_le_pow_left₀ (value_nonneg _) hhigh h
          _ = a.value ^ (2 * h) := by rw [← pow_two, ← pow_mul]
      have hlower : a.value ^ (2 * h) * (1 - slack) ^ (2 * (2 * h)) ≤ half.value :=
        calc a.value ^ (2 * h) * (1 - slack) ^ (2 * (2 * h))
            ≤ a.value ^ (2 * h) * (1 - slack) ^ (h + 2 * h) := by
              gcongr ?_ * ?_
              exact pow_le_pow_of_le_one hr hr' (by omega)
          _ = (a.value * a.value * (1 - slack)) ^ h * (1 - slack) ^ (2 * h) := by
              rw [mul_pow, ← pow_two, ← pow_mul, pow_add, mul_assoc]
          _ ≤ (mul a a).value ^ h * (1 - slack) ^ (2 * h) := by gcongr
          _ ≤ half.value := hhalf
      split
      · rename_i hodd
        obtain rfl : 2 * h + 1 = n := by omega
        obtain ⟨hproduct, hproduct'⟩ := mul_bounds a half
        constructor
        · calc a.value ^ (2 * h + 1) * (1 - slack) ^ (2 * (2 * h + 1))
              ≤ a.value ^ (2 * h + 1) * (1 - slack) ^ (2 * (2 * h) + 1) := by
                gcongr ?_ * ?_
                exact pow_le_pow_of_le_one hr hr' (by omega)
            _ = a.value * (a.value ^ (2 * h) * (1 - slack) ^ (2 * (2 * h))) * (1 - slack) := by
                ring
            _ ≤ a.value * half.value * (1 - slack) := by gcongr
            _ ≤ (mul a half).value := hproduct
        · calc (mul a half).value ≤ a.value * half.value := hproduct'
            _ ≤ a.value * a.value ^ (2 * h) := by gcongr
            _ = a.value ^ (2 * h + 1) := by rw [pow_succ, mul_comm]
      · rename_i heven
        obtain rfl : 2 * h = n := by omega
        exact ⟨hlower, hupper⟩

/-- The product of two powers of two keeps its value. -/
structure IsOne (w : Wide) : Prop where
  bits : ∃ k, w.bits = 2 ^ k
  value : w.value = 1

theorem IsOne.mul (ha : a.IsOne) (hb : b.IsOne) : (mul a b).IsOne := by
  obtain ⟨⟨j, hj⟩, ha⟩ := ha
  obtain ⟨⟨k, hk⟩, hb⟩ := hb
  have hproduct := value_mul a b
  rw [ha, hb, mul_one, Wide.value, hj, hk, ← pow_add] at hproduct
  unfold Wide.mul shorten width
  simp only
  rw [hj, hk, ← pow_add, Nat.log2_two_pow]
  have hle : j + k + 1 - 640 ≤ j + k := by omega
  generalize j + k + 1 - 640 = s at hle
  rw [Nat.pow_div hle two_pos]
  refine ⟨⟨_, rfl⟩, ?_⟩
  rw [← hproduct, Wide.value, zpow_add₀ two_ne_zero, zpow_natCast, mul_left_comm, mul_comm]
  push_cast
  rw [← pow_add, Nat.sub_add_cancel hle]

theorem IsOne.pow (ha : a.IsOne) (fuel n : Nat) : (pow fuel a n).IsOne := by
  have hone : (⟨1, 0⟩ : Wide).IsOne := ⟨⟨0, rfl⟩, by simp [Wide.value]⟩
  induction fuel generalizing a n with
  | zero => exact hone
  | succ fuel ih =>
    rw [Wide.pow]
    split
    · exact hone
    · split
      · exact ha.mul (ih (ha.mul ha) _)
      · exact ih (ha.mul ha) _

/-- A number stands between powers of two. -/
theorem value_mem (hw : 0 < w.bits) :
    (2 : ℚ) ^ ((w.bits.log2 : Int) + w.scale) ≤ w.value ∧
      w.value < 2 ^ ((w.bits.log2 : Int) + w.scale + 1) := by
  have hpow : (0 : ℚ) < 2 ^ w.scale := by positivity
  have hlow : (2 : ℚ) ^ w.bits.log2 ≤ w.bits := by exact_mod_cast Nat.log2_self_le hw.ne'
  have hhigh : (w.bits : ℚ) < 2 ^ (w.bits.log2 + 1) := by exact_mod_cast Nat.lt_log2_self
  rw [add_right_comm, zpow_add₀ two_ne_zero, zpow_add₀ two_ne_zero, zpow_natCast, value]
  refine ⟨mul_le_mul_of_nonneg_right hlow hpow.le, mul_lt_mul_of_pos_right ?_ hpow⟩
  exact_mod_cast hhigh

/-- A positive number is rounded to the double next to it. -/
theorem isNext_round (hw : 0 < w.bits) : (round false false w).IsNext w.value := by
  obtain ⟨hlow, hhigh⟩ := value_mem hw
  have hpos : 0 < w.value := lt_of_lt_of_le (zpow_pos two_pos _) hlow
  unfold round
  simp only [Bool.false_eq_true, if_false]
  split
  · rename_i htop
    refine ⟨rfl, ?_⟩
    rw [rank_infinity, if_neg Bool.false_ne_true, place_of_ceiling_le]
    refine ceiling_lt_limit.le.trans (le_trans ?_ hlow)
    exact zpow_le_zpow_right₀ one_le_two (by omega)
  · split
    · rename_i htop
      refine ⟨rfl, ?_⟩
      rw [rank_zero, place_of_tiny hpos]
      refine hhigh.le.trans (zpow_le_zpow_right₀ one_le_two ?_)
      omega
    · split
      · rename_i hscale
        obtain ⟨e, he⟩ := Int.exists_eq_neg_ofNat hscale.le
        have hratio : ratio w.bits (2 ^ e) = w.value := by
          rw [ratio, value, he, zpow_neg, zpow_natCast, div_eq_mul_inv, Nat.cast_pow, Nat.cast_ofNat]
        rw [he, Int.neg_neg, Int.toNat_natCast, ← hratio]
        exact isNext_ofRatio hw (Nat.two_pow_pos e)
      · rename_i hscale
        obtain ⟨e, he⟩ := Int.eq_ofNat_of_zero_le (not_lt.mp hscale)
        have hratio : ratio (w.bits * 2 ^ e) 1 = w.value := by
          rw [ratio, value, he, zpow_natCast, Nat.cast_one, div_one, Nat.cast_mul, Nat.cast_pow,
            Nat.cast_ofNat]
        rw [he, Int.toNat_natCast, ← hratio]
        exact isNext_ofRatio (Nat.mul_pos hw (Nat.two_pow_pos e)) Nat.one_pos

/-! ### What is lost -/

section Growth

variable {b : ℚ} {k k' : Nat}

theorem slack_le : slack ≤ 1 / 2 ^ 124 :=
  one_div_le_one_div_of_le (by positivity) (pow_le_pow_right₀ one_le_two (by decide))

/-- So much is left of a power of so few factors. -/
theorem rest_le (n : Nat) : 1 - n * (1 / 2 ^ 124) ≤ (1 - slack) ^ n := by
  have hpower := one_add_mul_le_pow (a := -slack) (by linarith [slack_lt_one]) n
  have hslack : (n : ℚ) * slack ≤ n * (1 / 2 ^ 124) :=
    mul_le_mul_of_nonneg_left slack_le (Nat.cast_nonneg n)
  rw [← sub_eq_add_neg] at hpower
  linarith

theorem two_pow_le (e m : Nat) : (2 : ℚ) ^ m ≤ (1 + 1 / 2 ^ e) ^ (2 ^ e * m) := by
  have hstep : (2 : ℚ) ≤ (1 + 1 / 2 ^ e) ^ 2 ^ e := by
    have hpos : (0 : ℚ) < 1 / 2 ^ e := by positivity
    have hpower := one_add_mul_le_pow (a := (1 : ℚ) / 2 ^ e) (by linarith) (2 ^ e)
    push_cast at hpower
    rw [mul_one_div_cancel (by positivity)] at hpower
    linarith
  rw [pow_mul]
  exact pow_le_pow_left₀ two_pos.le hstep m

/-- A power of a base above one overflows in the end. -/
theorem ceiling_le_of_large (hb : 1 + 1 / 2 ^ 52 ≤ b) (hk : 2 ^ 63 ≤ k) :
    ceiling ≤ b ^ k * (1 - slack) ^ (2 * k) := by
  have hslack := slack_pos
  have hslack' := slack_le
  have hfactor : 1 + 1 / 2 ^ 53 ≤ b * (1 - slack) ^ 2 := by
    have hrest := rest_le 2
    have hb' : (1 + 1 / 2 ^ 52) * (1 - (2 : Nat) * (1 / 2 ^ 124)) ≤ b * (1 - slack) ^ 2 :=
      mul_le_mul hb hrest (by norm_num) (by linarith)
    refine le_trans ?_ hb'
    norm_num
  calc ceiling ≤ limit := ceiling_lt_limit.le
    _ = (2 : ℚ) ^ 1024 := by
        rw [limit, ← zpow_natCast]
        rfl
    _ ≤ (1 + 1 / 2 ^ 53) ^ (2 ^ 53 * 1024) := two_pow_le 53 1024
    _ ≤ (1 + 1 / 2 ^ 53) ^ k := pow_le_pow_right₀ (by norm_num) (by omega)
    _ ≤ (b * (1 - slack) ^ 2) ^ k := pow_le_pow_left₀ (by norm_num) hfactor k
    _ = b ^ k * (1 - slack) ^ (2 * k) := by rw [mul_pow, ← pow_mul]

/-- What is lost of a power is less than what one factor more gives. -/
theorem pow_le_of_lt (hb : 1 + 1 / 2 ^ 52 ≤ b) (hlt : k < k') (hk : k' < 2 ^ 63) :
    b ^ k ≤ b ^ k' * (1 - slack) ^ (2 * k') := by
  have hone : 1 ≤ b := by
    refine le_trans ?_ hb
    norm_num
  have hrest : 1 - 1 / 2 ^ 60 ≤ (1 - slack) ^ (2 * k') := by
    refine le_trans ?_ (rest_le (2 * k'))
    have hcast : ((2 * k' : Nat) : ℚ) ≤ 2 ^ 64 := by
      exact_mod_cast (by omega : 2 * k' ≤ 2 ^ 64)
    have hmul := mul_le_mul_of_nonneg_right hcast (by norm_num : (0 : ℚ) ≤ 1 / 2 ^ 124)
    have hvalue : (2 : ℚ) ^ 64 * (1 / 2 ^ 124) = 1 / 2 ^ 60 := by norm_num
    linarith
  have hfactor : 1 ≤ b * (1 - slack) ^ (2 * k') := by
    have hmul : (1 + 1 / 2 ^ 52) * (1 - 1 / 2 ^ 60) ≤ b * (1 - slack) ^ (2 * k') :=
      mul_le_mul hb hrest (by norm_num) (by linarith)
    refine le_trans ?_ hmul
    norm_num
  calc b ^ k = b ^ k * 1 := (mul_one _).symm
    _ ≤ b ^ k * (b * (1 - slack) ^ (2 * k')) := by gcongr
    _ = b ^ (k + 1) * (1 - slack) ^ (2 * k') := by rw [pow_succ, mul_assoc]
    _ ≤ b ^ k' * (1 - slack) ^ (2 * k') := by
        exact mul_le_mul_of_nonneg_right (pow_le_pow_right₀ hone hlt)
          (le_trans (by norm_num) hrest)

/-- A power that is too large by a factor that a double can tell is too large as it is computed. -/
theorem ceiling_le_of_limit_le (hb : limit ≤ b ^ k) (hk : k < 2 ^ 53) :
    ceiling ≤ b ^ k * (1 - slack) ^ (2 * k) := by
  have hrest : 1 - 1 / 2 ^ 54 ≤ (1 - slack) ^ (2 * k) := by
    refine le_trans ?_ (rest_le (2 * k))
    have hcast : ((2 * k : Nat) : ℚ) ≤ 2 ^ 54 := by
      exact_mod_cast (by omega : 2 * k ≤ 2 ^ 54)
    have hmul := mul_le_mul_of_nonneg_right hcast (by norm_num : (0 : ℚ) ≤ 1 / 2 ^ 124)
    have hvalue : (2 : ℚ) ^ 54 * (1 / 2 ^ 124) ≤ 1 / 2 ^ 54 := by norm_num
    linarith
  calc ceiling = limit * (1 - 1 / 2 ^ 54) := by
        rw [ceiling, limit_eq, mul_right_comm]
        norm_num
    _ ≤ b ^ k * (1 - slack) ^ (2 * k) :=
        mul_le_mul hb hrest (by norm_num) (limit_pos.le.trans hb)

end Growth

end Wide

/-- A double that comes to one has a single bit. -/
theorem isOne_of_value (hone : x.value = 1) : Wide.IsOne ⟨x.significand, x.scale⟩ := by
  obtain ⟨-, -, hvalue⟩ := of_value_pos (hone ▸ one_pos)
  rw [hone] at hvalue
  refine ⟨?_, hvalue.symm⟩
  rcases le_or_gt x.scale 0 with hscale | hscale
  · obtain ⟨e, he⟩ := Int.exists_eq_neg_ofNat hscale
    refine ⟨e, ?_⟩
    rw [he, zpow_neg, zpow_natCast, eq_mul_inv_iff_mul_eq₀ (by positivity), one_mul] at hvalue
    exact_mod_cast hvalue.symm
  · -- a whole number times a power of two is not one
    have htwo : (2 : ℚ) ^ (1 : Int) ≤ 2 ^ x.scale := zpow_le_zpow_right₀ one_le_two hscale
    have hleast : (1 : ℚ) ≤ x.significand := by
      by_contra hlt
      obtain hnone : x.significand = 0 := by
        have hcast : x.significand < 1 := by exact_mod_cast not_le.mp hlt
        omega
      rw [hnone, Nat.cast_zero, zero_mul] at hvalue
      exact one_ne_zero hvalue
    rw [zpow_one] at htwo
    nlinarith

/-- A power of a number above zero is rounded from a number that is not above it, and below it by no
more than the slack. -/
theorem isNext_pow (hx : x.isFinite = true) (hpos : 0 < x.value) (hn : 0 < n) :
    ∃ v, (x.pow n).IsNext v ∧ x.value ^ n * (1 - Wide.slack) ^ (2 * n) ≤ v ∧ v ≤ x.value ^ n ∧
      (x.value = 1 → v = 1) := by
  obtain ⟨hpositive, hbits, hvalue⟩ := of_value_pos hpos
  have hnan := isNan_eq_false hx
  have hzero : x.isZero = false := by simp [isZero, hbits.ne']
  have hpow : x.pow n = (Wide.pow (n.log2 + 1) ⟨x.significand, x.scale⟩ n).round false false := by
    have hn' : (n : Int) ≠ 0 := by omega
    have hlt : ¬ (n : Int) < 0 := by omega
    unfold pow
    rw [hpositive, hnan, hzero, isInfinite_eq_false hx, if_neg hn', if_neg Bool.false_ne_true,
      Bool.or_self, if_neg Bool.false_ne_true, decide_eq_false hlt, Int.natAbs_natCast]
    rfl
  obtain ⟨hlow, hhigh⟩ := Wide.pow_bounds (Nat.lt_log2_self (n := n)) ⟨x.significand, x.scale⟩
  have hbase : (⟨x.significand, x.scale⟩ : Wide).value = x.value := hvalue.symm
  rw [hbase] at hlow hhigh
  refine ⟨_, ?_, hlow, hhigh, fun hone => ((isOne_of_value hone).pow _ _).value⟩
  rw [hpow]
  refine Wide.isNext_round ?_
  have hrest : 0 < 1 - Wide.slack := sub_pos.mpr Wide.slack_lt_one
  have hleft : 0 < x.value ^ n * (1 - Wide.slack) ^ (2 * n) := by positivity
  rw [Nat.pos_iff_ne_zero]
  intro hnone
  rw [Wide.value, hnone, Nat.cast_zero, zero_mul] at hlow
  exact hleft.not_ge hlow

end Conveyor.Binary64
