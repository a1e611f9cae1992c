import Mathlib.Algebra.Order.Field.Power
import Mathlib.Data.Rat.Cast.Order
import Mathlib.Tactic.FieldSimp
import Mathlib.Tactic.Linarith
import Mathlib.Tactic.Positivity
import Mathlib.Tactic.Ring
import Conveyor.Binary64.Basic

/-!
# Rounding

Every fraction that lies nearer to a double than to its neighbours is rounded to it, and so is a
fraction halfway if the double's significand is even.
-/

namespace Conveyor

/-! ## Rounding to an integer -/

/-- A fraction is rounded to an integer that is no further than a half, and even if it is just as
far. -/
theorem roundHalfEven_eq {a b k : Nat} (hb : 0 < b) (hlow : 2 * (k * b) ≤ 2 * a + b)
    (hhigh : 2 * a ≤ 2 * (k * b) + b)
    (htie : 2 * (k * b) = 2 * a + b ∨ 2 * a = 2 * (k * b) + b → k % 2 = 0) :
    roundHalfEven a b = k := by
  have hdiv : a / b * b + a % b = a := Nat.div_add_mod' a b
  have hmod : a % b < b := Nat.mod_lt a hb
  rw [roundHalfEven]
  generalize a / b = q at hdiv ⊢
  generalize a % b = r at hdiv hmod ⊢
  have hle : k ≤ q + 1 := by
    by_contra hgt
    have hmul : (q + 2) * b ≤ k * b := Nat.mul_le_mul_right b (by omega)
    rw [Nat.add_mul] at hmul
    omega
  have hge : q ≤ k := by
    by_contra hlt
    have hmul : (k + 1) * b ≤ q * b := Nat.mul_le_mul_right b (by omega)
    rw [Nat.add_mul] at hmul
    omega
  rcases Nat.lt_or_ge q k with hlt | hge'
  · obtain rfl : k = q + 1 := by omega
    rw [Nat.add_mul] at hlow hhigh htie
    rw [if_pos (by omega)]
  · obtain rfl : q = k := by omega
    rw [if_neg (by omega)]

namespace Binary64

/-! ## Scales -/

/-- The fraction in rational numbers. -/
def ratio (n d : Nat) : ℚ := n / d

theorem scaleDown_pos {n d : Nat} (hd : 0 < d) (q : Int) : 0 < (scaleDown n d q).2 := by
  unfold scaleDown
  split
  · exact hd
  · positivity

theorem ratio_scaleDown (n d : Nat) (q : Int) :
    ratio (scaleDown n d q).1 (scaleDown n d q).2 = ratio n d / 2 ^ q := by
  unfold scaleDown ratio
  split
  · rename_i hq
    obtain ⟨k, rfl⟩ := Int.exists_eq_neg_ofNat (Int.le_of_lt hq)
    simp
    ring
  · rename_i hq
    obtain ⟨k, rfl⟩ := Int.eq_ofNat_of_zero_le (Int.not_lt.mp hq)
    simp
    field_simp

/-- The scale at which a fraction has a significand of 53 bits, or the least scale. -/
structure IsScale (v : ℚ) (q : Int) : Prop where
  least : -1074 ≤ q
  below : v < 2 ^ 53 * (2 : ℚ) ^ q
  above : q = -1074 ∨ 2 ^ 52 * (2 : ℚ) ^ q ≤ v

theorem two_zpow_lt {v : ℚ} {q q' : Int} {m n : Nat} (hlow : 2 ^ m * (2 : ℚ) ^ q ≤ v)
    (hhigh : v < 2 ^ n * (2 : ℚ) ^ q') : (m : Int) + q < n + q' := by
  have hlt := lt_of_le_of_lt hlow hhigh
  rw [← zpow_natCast, ← zpow_natCast, ← zpow_add₀ two_ne_zero, ← zpow_add₀ two_ne_zero] at hlt
  exact (zpow_lt_zpow_iff_right₀ one_lt_two).mp hlt

theorem IsScale.eq {v : ℚ} {q q' : Int} (h : IsScale v q) (h' : IsScale v q') : q = q' := by
  have hleast := h.least
  have hleast' := h'.least
  rcases h.above with hq | hq
  · rcases h'.above with hq' | hq'
    · omega
    · have hlt := two_zpow_lt hq' h.below
      omega
  · have hlt := two_zpow_lt hq h'.below
    rcases h'.above with hq' | hq'
    · omega
    · have hlt' := two_zpow_lt hq' h.below
      omega

/-- The binary logarithms of numerator and denominator enclose the fraction. -/
theorem ratio_bounds {n d : Nat} (hn : 0 < n) (hd : 0 < d) :
    (2 : ℚ) ^ ((n.log2 : Int) - d.log2 - 1) ≤ ratio n d ∧
      ratio n d < (2 : ℚ) ^ ((n.log2 : Int) - d.log2 + 1) := by
  have hnlow : (2 : ℚ) ^ n.log2 ≤ n := by exact_mod_cast Nat.log2_self_le (by omega)
  have hnhigh : (n : ℚ) < 2 ^ (n.log2 + 1) := by exact_mod_cast Nat.lt_log2_self
  have hdlow : (2 : ℚ) ^ d.log2 ≤ d := by exact_mod_cast Nat.log2_self_le (by omega)
  have hdhigh : (d : ℚ) < 2 ^ (d.log2 + 1) := by exact_mod_cast Nat.lt_log2_self
  have hdpos : (0 : ℚ) < d := by exact_mod_cast hd
  unfold ratio
  constructor
  · rw [le_div_iff₀ hdpos]
    calc (2 : ℚ) ^ ((n.log2 : Int) - d.log2 - 1) * d
        ≤ (2 : ℚ) ^ ((n.log2 : Int) - d.log2 - 1) * 2 ^ (d.log2 + 1) := by gcongr
      _ = 2 ^ n.log2 := by
        rw [← zpow_natCast, ← zpow_natCast, ← zpow_add₀ two_ne_zero]
        congr 1
        push_cast
        ring
      _ ≤ n := hnlow
  · rw [div_lt_iff₀ hdpos]
    calc (n : ℚ) < 2 ^ (n.log2 + 1) := hnhigh
      _ = (2 : ℚ) ^ ((n.log2 : Int) - d.log2 + 1) * 2 ^ d.log2 := by
        rw [← zpow_natCast, ← zpow_natCast, ← zpow_add₀ two_ne_zero]
        congr 1
        push_cast
        ring
      _ ≤ (2 : ℚ) ^ ((n.log2 : Int) - d.log2 + 1) * d := by gcongr

theorem le_div_iff_le_ratio {a b k : Nat} (hb : 0 < b) : k ≤ a / b ↔ (k : ℚ) ≤ ratio a b := by
  have hpos : (0 : ℚ) < b := by exact_mod_cast hb
  rw [Nat.le_div_iff_mul_le hb, ratio, le_div_iff₀ hpos]
  exact_mod_cast Iff.rfl

theorem isScale_scaleFor {n d : Nat} (hn : 0 < n) (hd : 0 < d) :
    IsScale (ratio n d) (scaleFor n d) := by
  obtain ⟨hlow, hhigh⟩ := ratio_bounds hn hd
  rw [scaleFor]
  generalize hq : max ((n.log2 : Int) - d.log2 - 53) (-1074) = q
  have hpos : (0 : ℚ) < 2 ^ q := by positivity
  have htest : 9007199254740992 ≤ (scaleDown n d q).1 / (scaleDown n d q).2 ↔
      2 ^ 53 * (2 : ℚ) ^ q ≤ ratio n d := by
    rw [le_div_iff_le_ratio (scaleDown_pos hd q), ratio_scaleDown, le_div_iff₀ hpos]
    norm_num
  simp only [htest]
  split
  · rename_i hle
    have hstep : (2 : ℚ) ^ (q + 1) = 2 * 2 ^ q := by
      rw [zpow_add₀ two_ne_zero]
      ring
    refine ⟨by omega, lt_of_lt_of_le hhigh ?_, .inr ?_⟩
    · rw [← zpow_natCast, ← zpow_add₀ two_ne_zero]
      apply zpow_le_zpow_right₀ one_le_two
      push_cast
      omega
    · rw [hstep]
      linarith
  · rename_i hlt
    refine ⟨by omega, not_le.mp hlt, ?_⟩
    rcases le_or_gt ((n.log2 : Int) - d.log2 - 53) (-1074) with hleast | hmore
    · left
      omega
    · right
      refine le_trans ?_ hlow
      rw [← zpow_natCast, ← zpow_add₀ two_ne_zero]
      apply zpow_le_zpow_right₀ one_le_two
      push_cast
      omega

/-- A fraction has just one scale. -/
theorem scaleFor_eq {n d : Nat} (hn : 0 < n) (hd : 0 < d) {q : Int} (h : IsScale (ratio n d) q) :
    scaleFor n d = q :=
  (isScale_scaleFor hn hd).eq h

/-! ## The numbers that are rounded to a double -/

/-- The significand of a normal double has 53 bits, and that of any other the least scale. -/
theorem significand_cases {x : Binary64} (hx : x.isFinite = true) :
    x.significand < 2 ^ 53 ∧ -1074 ≤ x.scale ∧ x.scale ≤ 971 ∧
      (x.scale = -1074 ∨ 2 ^ 52 ≤ x.significand) := by
  have hfraction := x.fraction.isLt
  have hexponent := x.exponent.isLt
  have hfinite : x.exponent.val ≠ 2047 := by simpa [isFinite] using hx
  unfold significand scale
  split
  · omega
  · omega

/-- A double is assembled from its significand and scale. -/
theorem assemble_significand {x : Binary64} (hx : x.isFinite = true) (negative : Bool) :
    assemble negative x.significand x.scale = { x with negative } := by
  have hfraction := x.fraction.isLt
  have hexponent := x.exponent.isLt
  have hfinite : x.exponent.val ≠ 2047 := by simpa [isFinite] using hx
  unfold assemble significand scale
  by_cases hzero : x.exponent.val = 0
  · have hsmall : ¬ 9007199254740992 ≤ x.fraction.val := by omega
    simp only [if_pos hzero, if_neg hsmall, if_pos hfraction, Fin.ofNat_val_eq_self]
    rw [show x.exponent = 0 from Fin.ext hzero]
  · have hsmall : ¬ 9007199254740992 ≤ 4503599627370496 + x.fraction.val := by omega
    have hnormal : ¬ 4503599627370496 + x.fraction.val < 4503599627370496 := by omega
    have hrange : ¬ 971 < (x.exponent.val : Int) - 1075 := by omega
    have hplace : ((x.exponent.val : Int) - 1075 + 1075).toNat = x.exponent.val := by omega
    simp only [if_neg hzero, if_neg hsmall, if_neg hnormal, if_neg hrange, hplace,
      Nat.add_sub_cancel_left, Fin.ofNat_val_eq_self]

/-- A significand of one bit too many is halved. -/
theorem assemble_carry (negative : Bool) (q : Int) :
    assemble negative (2 ^ 53) q = assemble negative (2 ^ 52) (q + 1) := by
  simp [assemble]

/-- The distance from a double to the halfway point below it, in quarters of its scale. The
neighbour below a power of two is nearer. -/
def quarters (x : Binary64) : Nat := if x.fraction.val = 0 ∧ 1 < x.exponent.val then 1 else 2

/-- The number lies between the halfway points to the neighbours of the double, and on one of them
only if the significand is even. -/
structure RoundsTo (v : ℚ) (x : Binary64) : Prop where
  low : (4 * x.significand - x.quarters) * (2 : ℚ) ^ x.scale ≤ 4 * v
  high : 4 * v ≤ (4 * x.significand + 2) * (2 : ℚ) ^ x.scale
  tie : (4 * x.significand - x.quarters) * (2 : ℚ) ^ x.scale = 4 * v ∨
    4 * v = (4 * x.significand + 2) * (2 : ℚ) ^ x.scale → x.significand % 2 = 0

/-- A fraction in the scale of a double is rounded to its significand. -/
theorem roundHalfEven_scaled {n d : Nat} (hd : 0 < d) {q : Int} {k : Nat}
    (hlow : (2 * k - 1) * (2 : ℚ) ^ q ≤ 2 * ratio n d)
    (hhigh : 2 * ratio n d ≤ (2 * k + 1) * (2 : ℚ) ^ q)
    (htie : (2 * k - 1) * (2 : ℚ) ^ q = 2 * ratio n d ∨
      2 * ratio n d = (2 * k + 1) * (2 : ℚ) ^ q → k % 2 = 0) :
    roundHalfEven (scaleDown n d q).1 (scaleDown n d q).2 = k := by
  have hb := scaleDown_pos (n := n) hd q
  have hratio := ratio_scaleDown n d q
  have hpow : (0 : ℚ) < 2 ^ q := by positivity
  generalize (scaleDown n d q).1 = a at hratio ⊢
  generalize (scaleDown n d q).2 = b at hratio hb ⊢
  have hbq : (0 : ℚ) < b := by exact_mod_cast hb
  have hv : ratio n d = ratio a b * 2 ^ q := by
    rw [hratio]
    field_simp
  have hr : ratio a b * b = a := by
    rw [ratio]
    field_simp
  rw [hv] at hlow hhigh htie
  have hlow' : (2 * k - 1) ≤ 2 * ratio a b := by nlinarith
  have hhigh' : 2 * ratio a b ≤ 2 * k + 1 := by nlinarith
  refine roundHalfEven_eq hb ?_ ?_ fun h => htie ?_
  · have hmul : 2 * ((k : ℚ) * b) ≤ 2 * a + b := by nlinarith
    exact_mod_cast hmul
  · have hmul : 2 * (a : ℚ) ≤ 2 * (k * b) + b := by nlinarith
    exact_mod_cast hmul
  · rcases h with h | h
    · left
      have hq : 2 * ((k : ℚ) * b) = 2 * a + b := by exact_mod_cast h
      have heq : (2 * k - 1) * (b : ℚ) = 2 * ratio a b * b := by linarith
      rw [mul_right_cancel₀ hbq.ne' heq]
      ring
    · right
      have hq : 2 * (a : ℚ) = 2 * (k * b) + b := by exact_mod_cast h
      have heq : 2 * ratio a b * b = (2 * k + 1) * (b : ℚ) := by linarith
      rw [← mul_right_cancel₀ hbq.ne' heq]
      ring

theorem quarters_le (x : Binary64) : x.quarters ≤ 2 := by
  unfold quarters
  split <;> decide

/-- Only below a power of two can a number that is rounded to a double have a smaller scale. -/
theorem eq_of_below {x : Binary64} (hx : x.isFinite = true) {v : ℚ} (h : RoundsTo v x)
    (hscale : x.scale ≠ -1074) (hv : v < 2 ^ 52 * (2 : ℚ) ^ x.scale) :
    x.significand = 2 ^ 52 ∧ x.quarters = 1 := by
  obtain ⟨-, -, -, hnormal⟩ := significand_cases hx
  have hpow : (0 : ℚ) < 2 ^ x.scale := by positivity
  have hlow := h.low
  have hlt : (4 * x.significand - x.quarters : ℚ) < 4 * 2 ^ 52 := by
    by_contra hge
    nlinarith
  have hm : 2 ^ 52 ≤ x.significand := by
    rcases hnormal with hleast | hm
    · exact absurd hleast hscale
    · exact hm
  have hle : 4 * x.significand < 4 * 2 ^ 52 + x.quarters := by
    have hcast : (4 * x.significand : ℚ) < 4 * 2 ^ 52 + x.quarters := by linarith
    exact_mod_cast hcast
  have hquarters := x.quarters_le
  have heq : x.significand = 2 ^ 52 := by omega
  refine ⟨heq, ?_⟩
  have hexponent : x.exponent.val ≠ 0 := by
    intro hzero
    rw [scale, if_pos hzero] at hscale
    exact hscale rfl
  rw [significand, if_neg hexponent] at heq
  rw [scale, if_neg hexponent] at hscale
  rw [quarters, if_pos (by omega)]

/-- A fraction that is rounded to a double comes out as the double, with the sign asked for. -/
theorem ofRatio_eq {x : Binary64} (hx : x.isFinite = true) (negative : Bool) {n d : Nat}
    (hn : 0 < n) (hd : 0 < d) (h : RoundsTo (ratio n d) x) :
    ofRatio negative n d = { x with negative } := by
  obtain ⟨hbits, hleast, -, -⟩ := significand_cases hx
  have hpow : (0 : ℚ) < 2 ^ x.scale := by positivity
  have hhigh := h.high
  have hlow := h.low
  have hquarters : (x.quarters : ℚ) ≤ 2 := by exact_mod_cast x.quarters_le
  rw [ofRatio, if_neg (by omega)]
  by_cases hside : x.scale = -1074 ∨ 2 ^ 52 * (2 : ℚ) ^ x.scale ≤ ratio n d
  · have hm : (x.significand : ℚ) + 1 ≤ 2 ^ 53 := by exact_mod_cast hbits
    have hbelow : ratio n d < 2 ^ 53 * (2 : ℚ) ^ x.scale := by nlinarith
    have hround : roundHalfEven (scaleDown n d x.scale).1 (scaleDown n d x.scale).2
        = x.significand := by
      refine roundHalfEven_scaled hd (by nlinarith) (by linarith) fun htie => h.tie ?_
      rcases htie with htie | htie
      · left
        nlinarith
      · right
        linarith
    rw [scaleFor_eq hn hd ⟨hleast, hbelow, hside⟩]
    simp only [hround]
    exact assemble_significand hx negative
  · -- the fraction has the scale of the doubles below a power of two, and is rounded up to it
    obtain ⟨hscale, hv⟩ := not_or.mp hside
    obtain ⟨hm, hone⟩ := eq_of_below hx h hscale (not_le.mp hv)
    have hstep : (2 : ℚ) ^ x.scale = 2 * 2 ^ (x.scale - 1) := by
      rw [zpow_sub_one₀ two_ne_zero]
      ring
    rw [hm, hone, hstep] at hlow
    rw [hstep] at hv
    have hpow' : (0 : ℚ) < 2 ^ (x.scale - 1) := by positivity
    have hround : roundHalfEven (scaleDown n d (x.scale - 1)).1 (scaleDown n d (x.scale - 1)).2
        = 2 ^ 53 := by
      refine roundHalfEven_scaled hd ?_ ?_ fun _ => by decide
      · push_cast at hlow ⊢
        linarith
      · push_cast
        linarith
    have hscale' : IsScale (ratio n d) (x.scale - 1) := by
      refine ⟨by omega, by linarith, .inr ?_⟩
      push_cast at hlow
      linarith
    rw [scaleFor_eq hn hd hscale']
    simp only [hround]
    rw [assemble_carry, Int.sub_add_cancel, ← hm]
    exact assemble_significand hx negative

/-! ## Decimals -/

/-- A number that is rounded to a finite double other than zero is not far out of the range. -/
theorem RoundsTo.bounds {v : ℚ} {x : Binary64} (h : RoundsTo v x) (hx : x.isFinite = true)
    (hpos : 0 < x.significand) : (2 : ℚ) ^ (-1076 : Int) ≤ v ∧ v ≤ 2 ^ (1024 : Int) := by
  obtain ⟨hbits, hleast, hmost, -⟩ := significand_cases hx
  have hlow := h.low
  have hhigh := h.high
  have hquarters : (x.quarters : ℚ) ≤ 2 := by exact_mod_cast x.quarters_le
  have hone : (1 : ℚ) ≤ x.significand := by exact_mod_cast hpos
  have hm : (x.significand : ℚ) + 1 ≤ 2 ^ 53 := by exact_mod_cast hbits
  have hfloor : (2 : ℚ) ^ (-1074 : Int) ≤ 2 ^ x.scale := zpow_le_zpow_right₀ one_le_two hleast
  have hceil : (2 : ℚ) ^ x.scale ≤ 2 ^ (971 : Int) := zpow_le_zpow_right₀ one_le_two hmost
  constructor
  · have hstep : (2 : ℚ) ^ (-1074 : Int) = 4 * 2 ^ (-1076 : Int) := by
      rw [show (-1074 : Int) = 2 + -1076 by norm_num, zpow_add₀ two_ne_zero]
      norm_num
    nlinarith
  · have hstep : (2 : ℚ) ^ (1024 : Int) = 2 ^ 53 * 2 ^ (971 : Int) := by
      rw [show (1024 : Int) = 53 + 971 by norm_num, zpow_add₀ two_ne_zero]
      norm_num
    have hbound : (4 * (x.significand : ℚ) + 2) * 2 ^ x.scale ≤ 4 * 2 ^ 53 * 2 ^ (971 : Int) := by
      gcongr
      linarith
    rw [hstep]
    linarith

/-- The digits of a decimal that is left out of account are too few to make up for its exponent. -/
theorem lt_of_skipped {c k : Nat} (h : (c.log2 + 1) * 302 + 400 * 1000 < k * 1000) :
    c * 10 ^ 400 < 10 ^ k := by
  have hbase : 2 ^ 1000 ≤ 10 ^ 302 := by decide +kernel
  have hpow : (2 ^ (c.log2 + 1)) ^ 1000 ≤ (10 ^ (k - 400)) ^ 1000 := by
    calc (2 ^ (c.log2 + 1)) ^ 1000 = (2 ^ 1000) ^ (c.log2 + 1) := by
          rw [← Nat.pow_mul, ← Nat.pow_mul, Nat.mul_comm]
      _ ≤ (10 ^ 302) ^ (c.log2 + 1) := pow_le_pow_left' hbase _
      _ = 10 ^ (302 * (c.log2 + 1)) := (pow_mul ..).symm
      _ ≤ 10 ^ ((k - 400) * 1000) := Nat.pow_le_pow_right (by decide) (by omega)
      _ = (10 ^ (k - 400)) ^ 1000 := pow_mul ..
  have hdigits : 2 ^ (c.log2 + 1) ≤ 10 ^ (k - 400) :=
    (pow_le_pow_iff_left₀ (Nat.zero_le _) (Nat.zero_le _) (by decide)).mp hpow
  calc c * 10 ^ 400 < 2 ^ (c.log2 + 1) * 10 ^ 400 :=
        Nat.mul_lt_mul_of_pos_right Nat.lt_log2_self (by positivity)
    _ ≤ 10 ^ (k - 400) * 10 ^ 400 := Nat.mul_le_mul_right _ hdigits
    _ = 10 ^ k := by
        rw [← Nat.pow_add]
        congr 1
        omega

theorem le_four_hundred {c : Nat} {e : Int} (hc : c ≠ 0)
    (h : (c : ℚ) * 10 ^ e ≤ 2 ^ (1024 : Int)) : e ≤ 400 := by
  have hone : (1 : ℚ) ≤ c := by exact_mod_cast Nat.one_le_iff_ne_zero.mpr hc
  have hbase : (2 : ℚ) ^ (1024 : Int) ≤ 10 ^ (400 : Int) := by
    have hnat : 2 ^ 1024 ≤ 10 ^ 400 := by decide +kernel
    exact_mod_cast hnat
  have hle : (10 : ℚ) ^ e ≤ 10 ^ (400 : Int) := by
    calc (10 : ℚ) ^ e ≤ c * 10 ^ e := le_mul_of_one_le_left (by positivity) hone
      _ ≤ 2 ^ (1024 : Int) := h
      _ ≤ 10 ^ (400 : Int) := hbase
  exact (zpow_le_zpow_iff_right₀ (by norm_num)).mp hle

theorem not_skipped {c k : Nat} (h : (2 : ℚ) ^ (-1076 : Int) ≤ c * 10 ^ (-(k : Int))) :
    k * 1000 ≤ (c.log2 + 1) * 302 + 400 * 1000 := by
  by_contra hskip
  have hlt := lt_of_skipped (not_le.mp hskip)
  have hbase : 2 ^ 1076 ≤ 10 ^ 400 := by decide +kernel
  have hle : 10 ^ k ≤ c * 2 ^ 1076 := by
    have hmul : (10 : ℚ) ^ k ≤ c * 2 ^ 1076 := by
      rw [zpow_neg, zpow_neg, zpow_natCast, ← div_eq_mul_inv,
        inv_le_iff_one_le_mul₀ (by positivity), div_mul_eq_mul_div, one_le_div (by positivity)] at h
      exact_mod_cast h
    exact_mod_cast hmul
  have hmore := Nat.mul_le_mul_left c hbase
  exact absurd (lt_of_le_of_lt (hle.trans hmore) hlt) (lt_irrefl _)

/-- A decimal that is rounded to a double comes out as the double, with the sign asked for. -/
theorem ofDecimal_eq {x : Binary64} (hx : x.isFinite = true) (hpos : 0 < x.significand)
    (negative : Bool) {c : Nat} {e : Int} (h : RoundsTo (c * 10 ^ e) x) :
    ofDecimal negative c e = { x with negative } := by
  obtain ⟨hlow, hhigh⟩ := h.bounds hx hpos
  have hc : c ≠ 0 := by
    rintro rfl
    have hzero : (0 : ℚ) < 2 ^ (-1076 : Int) := by positivity
    rw [Nat.cast_zero, zero_mul] at hlow
    exact absurd hlow (not_le.mpr hzero)
  rw [ofDecimal, if_neg hc, if_neg (not_lt.mpr (le_four_hundred hc hhigh))]
  split
  · rename_i hneg
    obtain ⟨k, rfl⟩ := Int.exists_eq_neg_ofNat (Int.le_of_lt hneg)
    have hkept := not_skipped hlow
    rw [if_neg (by omega)]
    refine ofRatio_eq hx negative (Nat.pos_of_ne_zero hc) (by positivity) ?_
    simpa [ratio, div_eq_mul_inv] using h
  · rename_i hneg
    obtain ⟨k, rfl⟩ := Int.eq_ofNat_of_zero_le (Int.not_lt.mp hneg)
    refine ofRatio_eq hx negative (by positivity) Nat.one_pos ?_
    simpa [ratio] using h

end Binary64
end Conveyor
