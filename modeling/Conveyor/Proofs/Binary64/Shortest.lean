import Mathlib.Tactic.LinearCombination
import Conveyor.Binary64.Shortest
import Conveyor.Proofs.Binary64.Rounding

/-!
# Shortest decimals

The shortest decimal of a double is rounded to the double. Eighteen digits are enough for some
decimal to be found, because the grid of so many digits is finer than the doubles are.
-/

namespace Conveyor

open Binary64

/-! ## The decimal exponent -/

/-- The fraction `l / k` is at most the decimal logarithm of two. -/
theorem ten_pow_le_two_pow {k l g t : Nat} (hk : k ≠ 0) (hbase : 10 ^ l ≤ 2 ^ k)
    (h : k * g ≤ l * t) : 10 ^ g ≤ 2 ^ t := by
  have hpow : (10 ^ g) ^ k ≤ (2 ^ t) ^ k := by
    calc (10 ^ g) ^ k = 10 ^ (k * g) := by rw [← pow_mul, Nat.mul_comm]
      _ ≤ 10 ^ (l * t) := Nat.pow_le_pow_right (by decide) h
      _ = (10 ^ l) ^ t := pow_mul ..
      _ ≤ (2 ^ k) ^ t := pow_le_pow_left' hbase _
      _ = (2 ^ t) ^ k := by rw [← pow_mul, ← pow_mul, Nat.mul_comm]
  exact (pow_le_pow_iff_left₀ (Nat.zero_le _) (Nat.zero_le _) hk).mp hpow

/-- The fraction `l / k` is that near to the decimal logarithm of two that `k` powers of two stay
within one power of ten of it. -/
theorem two_pow_le_ten_pow {k l g s : Nat} (hk : k ≠ 0) (hbase : 2 ^ k ≤ 2 * 10 ^ l)
    (hs : s ≤ k) (h : l * s ≤ k * g) : 2 ^ (s + 1) ≤ 10 ^ (g + 1) := by
  have hpow : (2 ^ (s + 1)) ^ k ≤ (10 ^ (g + 1)) ^ k := by
    calc (2 ^ (s + 1)) ^ k = (2 ^ k) ^ s * 2 ^ k := by
          rw [← pow_mul, ← pow_mul, ← pow_add, Nat.add_mul, Nat.one_mul, Nat.mul_comm s]
      _ ≤ (2 * 10 ^ l) ^ s * 2 ^ k := Nat.mul_le_mul_right _ (pow_le_pow_left' hbase s)
      _ = (10 ^ l) ^ s * (2 ^ s * 2 ^ k) := by rw [mul_pow, mul_comm (2 ^ s), mul_assoc]
      -- the twos that the base is too great by are at most `k`, and twice two is still below ten
      _ ≤ (10 ^ l) ^ s * (2 ^ k * 2 ^ k) :=
          Nat.mul_le_mul_left _ (Nat.mul_le_mul_right _ (Nat.pow_le_pow_right (by decide) hs))
      _ = (10 ^ l) ^ s * (2 * 2) ^ k := by rw [mul_pow]
      _ ≤ (10 ^ l) ^ s * 10 ^ k :=
          Nat.mul_le_mul_left _ (pow_le_pow_left' (show 2 * 2 ≤ 10 by decide) k)
      _ = 10 ^ (l * s) * 10 ^ k := by rw [pow_mul]
      _ ≤ 10 ^ (k * g) * 10 ^ k := Nat.mul_le_mul_right _ (Nat.pow_le_pow_right (by decide) h)
      _ = (10 ^ (g + 1)) ^ k := by
          rw [← pow_add, ← pow_mul, Nat.add_mul, Nat.one_mul, Nat.mul_comm g]
  exact (pow_le_pow_iff_left₀ (Nat.zero_le _) (Nat.zero_le _) hk).mp hpow

/-- A power of ten is at most a fraction. -/
theorem ten_zpow_le_ratio_iff {n d : Nat} (hd : 0 < d) (e : Int) :
    (if e < 0 then decide (d ≤ n * 10 ^ (-e).toNat) else decide (d * 10 ^ e.toNat ≤ n)) = true ↔
      (10 : ℚ) ^ e ≤ ratio n d := by
  have hpos : (0 : ℚ) < d := by exact_mod_cast hd
  rw [ratio, le_div_iff₀ hpos]
  split
  · rename_i he
    obtain ⟨k, rfl⟩ := Int.exists_eq_neg_ofNat (Int.le_of_lt he)
    rw [decide_eq_true_iff, zpow_neg, zpow_natCast, inv_mul_le_iff₀ (by positivity),
      mul_comm _ (n : ℚ)]
    simp only [Int.neg_neg, Int.toNat_natCast]
    exact_mod_cast Iff.rfl
  · rename_i he
    obtain ⟨k, rfl⟩ := Int.eq_ofNat_of_zero_le (Int.not_lt.mp he)
    rw [decide_eq_true_iff, zpow_natCast, mul_comm _ (d : ℚ)]
    simp only [Int.toNat_natCast]
    exact_mod_cast Iff.rfl

/-- The guess of the decimal exponent from the binary one is too great by one at most. -/
theorem ten_zpow_guess_le {t : Int} (h : -4096 ≤ t) :
    (10 : ℚ) ^ (t * 1233 / 4096 - 1) ≤ 2 ^ (t - 1) := by
  rcases lt_or_ge t 0 with hneg | hnonneg
  · obtain ⟨s, rfl⟩ := Int.exists_eq_neg_ofNat (Int.le_of_lt hneg)
    obtain ⟨g, hg⟩ := Int.exists_eq_neg_ofNat (a := -(s : Int) * 1233 / 4096) (by omega)
    have hle : (2 : ℚ) ^ (s + 1) ≤ 10 ^ (g + 1) := by
      exact_mod_cast two_pow_le_ten_pow (k := 4096) (l := 1233) (g := g) (s := s) (by decide)
        (by decide +kernel) (by omega) (by omega)
    rw [hg, show -(g : Int) - 1 = -((g + 1 : Nat) : Int) by omega,
      show -(s : Int) - 1 = -((s + 1 : Nat) : Int) by omega, zpow_neg, zpow_neg, zpow_natCast,
      zpow_natCast]
    exact inv_anti₀ (by positivity) hle
  · obtain ⟨s, rfl⟩ := Int.eq_ofNat_of_zero_le hnonneg
    obtain ⟨g, hg⟩ := Int.eq_ofNat_of_zero_le (a := (s : Int) * 1233 / 4096) (by omega)
    have hle : (10 : ℚ) ^ g ≤ 2 ^ s := by
      exact_mod_cast ten_pow_le_two_pow (k := 4096) (l := 1233) (g := g) (t := s) (by decide)
        (by decide +kernel) (by omega)
    have hpos : (0 : ℚ) < 2 ^ s := by positivity
    rw [hg, zpow_sub_one₀ (by norm_num), zpow_sub_one₀ (by norm_num), zpow_natCast, zpow_natCast]
    linarith

theorem ten_zpow_decimalExponent_le {n d : Nat} (hn : 0 < n) (hd : 0 < d)
    (hrange : d.log2 ≤ n.log2 + 4096) : (10 : ℚ) ^ decimalExponent n d ≤ ratio n d := by
  unfold decimalExponent
  simp only [ten_zpow_le_ratio_iff hd]
  split
  · rename_i h
    exact h
  split
  · rename_i h
    exact h
  · exact (ten_zpow_guess_le (by omega)).trans (ratio_bounds hn hd).1

/-! ## Basins -/

namespace Binary64

/-- A decimal as a fraction. -/
theorem ratio_decimal (c : Nat) (p : Int) :
    ratio (if p < 0 then (c, 10 ^ (-p).toNat) else (c * 10 ^ p.toNat, 1)).1
      (if p < 0 then (c, 10 ^ (-p).toNat) else (c * 10 ^ p.toNat, 1)).2 = c * 10 ^ p := by
  unfold ratio
  split
  · rename_i hp
    obtain ⟨k, rfl⟩ := Int.exists_eq_neg_ofNat (Int.le_of_lt hp)
    simp [div_eq_mul_inv]
  · rename_i hp
    obtain ⟨k, rfl⟩ := Int.eq_ofNat_of_zero_le (Int.not_lt.mp hp)
    simp

/-- A basin holds the decimals between its ends. -/
theorem Basin.holds_iff (b : Basin) (c : Nat) (p : Int) :
    b.holds c p = true ↔
      if b.closed then (b.low : ℚ) ≤ (c : ℚ) * 10 ^ p * b.den ∧ (c : ℚ) * 10 ^ p * b.den ≤ b.high
      else (b.low : ℚ) < (c : ℚ) * 10 ^ p * b.den ∧ (c : ℚ) * 10 ^ p * b.den < b.high := by
  rw [← ratio_decimal]
  unfold holds
  have hd : 0 < (if p < 0 then (c, 10 ^ (-p).toNat) else (c * 10 ^ p.toNat, 1)).2 := by
    split
    · exact Nat.pow_pos (by decide)
    · exact Nat.one_pos
  generalize (if p < 0 then (c, 10 ^ (-p).toNat) else (c * 10 ^ p.toNat, 1)) = r at hd ⊢
  obtain ⟨n, d⟩ := r
  have hpos : (0 : ℚ) < d := by exact_mod_cast hd
  simp only [ratio, div_mul_eq_mul_div, le_div_iff₀ hpos, div_le_iff₀ hpos, lt_div_iff₀ hpos,
    div_lt_iff₀ hpos]
  split <;> simp only [Bool.and_eq_true, decide_eq_true_eq] <;> norm_cast

/-- The basin of a double in quarters of its scale. -/
theorem basin_eq {x : Binary64} (hx : x.isFinite = true) :
    ∃ up den : Nat, 0 < den ∧ den.log2 ≤ 1076 ∧ (4 * up : ℚ) = den * 2 ^ x.scale ∧
      x.basin = ⟨(4 * x.significand - x.quarters) * up, 4 * x.significand * up,
        (4 * x.significand + 2) * up, den, x.significand % 2 = 0⟩ := by
  obtain ⟨-, hleast, -, -⟩ := significand_cases hx
  unfold basin quarters
  by_cases hq : x.scale - 2 < 0
  · refine ⟨1, 2 ^ (-(x.scale - 2)).toNat, Nat.pow_pos (by decide), ?_, ?_, ?_⟩
    · rw [Nat.log2_two_pow]
      omega
    · obtain ⟨k, hk⟩ := Int.exists_eq_neg_ofNat (Int.le_of_lt hq)
      rw [hk, show x.scale = 2 + -(k : Int) by omega, zpow_add₀ two_ne_zero, zpow_neg]
      simp
      field_simp
      norm_num
    · simp only [if_pos hq]
  · refine ⟨2 ^ (x.scale - 2).toNat, 1, Nat.one_pos, by decide, ?_, ?_⟩
    · obtain ⟨k, hk⟩ := Int.eq_ofNat_of_zero_le (Int.not_lt.mp hq)
      rw [hk, show x.scale = 2 + (k : Int) by omega, zpow_add₀ two_ne_zero]
      simp
      norm_num
    · simp only [if_neg hq]

/-- The decimals in the basin of a double are those that are rounded to it. -/
theorem basin_holds_iff {x : Binary64} (hx : x.isFinite = true) (hpos : 0 < x.significand)
    (c : Nat) (p : Int) : x.basin.holds c p = true ↔ RoundsTo (c * 10 ^ p) x := by
  obtain ⟨up, den, hden, -, hup, hbasin⟩ := basin_eq hx
  have hquarters := x.quarters_le
  have hdenq : (0 : ℚ) < den := by exact_mod_cast hden
  rw [Basin.holds_iff, hbasin]
  simp only [decide_eq_true_eq]
  generalize (c : ℚ) * 10 ^ p = v
  have hlow : (((4 * x.significand - x.quarters) * up : Nat) : ℚ) =
      (4 * x.significand - x.quarters) * 2 ^ x.scale / 4 * den := by
    rw [Nat.cast_mul, Nat.cast_sub (by omega)]
    push_cast
    linear_combination (4 * (x.significand : ℚ) - x.quarters) / 4 * hup
  have hhigh : (((4 * x.significand + 2) * up : Nat) : ℚ) =
      (4 * x.significand + 2) * 2 ^ x.scale / 4 * den := by
    push_cast
    linear_combination (4 * (x.significand : ℚ) + 2) / 4 * hup
  rw [hlow, hhigh]
  simp only [mul_le_mul_iff_left₀ hdenq, mul_lt_mul_iff_left₀ hdenq]
  split
  · rename_i heven
    constructor
    · rintro ⟨hl, hh⟩
      exact ⟨by linarith, by linarith, fun _ => heven⟩
    · intro h
      have hl := h.low
      have hh := h.high
      constructor <;> linarith
  · rename_i hodd
    constructor
    · rintro ⟨hl, hh⟩
      refine ⟨by linarith, by linarith, ?_⟩
      rintro (h | h)
      · linarith
      · linarith
    · intro h
      have hl := h.low
      have hh := h.high
      have htie := mt h.tie hodd
      obtain ⟨hl', hh'⟩ := not_or.mp htie
      have hl := lt_of_le_of_ne hl hl'
      have hh := lt_of_le_of_ne hh hh'
      constructor <;> linarith

/-! ## The search -/

/-- The middle of a basin as a fraction of the grid. -/
def Basin.onGrid (b : Basin) (p : Int) : Nat × Nat :=
  if p < 0 then (b.mid * 10 ^ (-p).toNat, b.den) else (b.mid, b.den * 10 ^ p.toNat)

/-- The coefficient on the grid nearest to the middle of a basin, the even one between two. -/
def Basin.nearest (b : Basin) (p : Int) : Nat :=
  let (n, d) := b.onGrid p
  if 2 * (n % d) < d ∨ (2 * (n % d) = d ∧ n / d % 2 = 0) then n / d else n / d + 1

theorem shortestFrom_succ (b : Basin) (top : Int) (count fuel : Nat) :
    ∃ other, shortestFrom b top count (fuel + 1) =
      if b.holds (b.nearest (top - count + 1)) (top - count + 1) then
        (b.nearest (top - count + 1), top - count + 1)
      else if b.holds other (top - count + 1) then (other, top - count + 1)
      else shortestFrom b top (count + 1) fuel := ⟨_, rfl⟩

/-- If the nearest decimal on the last grid is in the basin, then so is the one that is found. -/
theorem holds_shortestFrom {b : Basin} {top : Int}
    (hlast : b.holds (b.nearest (top - 17)) (top - 17) = true) :
    ∀ {fuel count : Nat}, count + fuel = 19 → 0 < fuel →
      b.holds (shortestFrom b top count fuel).1 (shortestFrom b top count fuel).2 = true := by
  intro fuel
  induction fuel with
  | zero =>
    intro count _ hpos
    exact absurd hpos (Nat.lt_irrefl 0)
  | succ fuel ih =>
    intro count hsum _
    obtain ⟨other, hstep⟩ := shortestFrom_succ b top count fuel
    rw [hstep]
    split
    · rename_i h
      exact h
    split
    · rename_i h
      exact h
    rename_i hnearest _
    apply ih (by omega)
    -- the search cannot end here, since the nearest decimal of the last grid was tried
    by_contra hzero
    obtain rfl : count = 18 := by omega
    rw [show top - (18 : Nat) + 1 = top - 17 by omega] at hnearest
    exact hnearest hlast

theorem ratio_onGrid (b : Basin) (p : Int) :
    ratio (b.onGrid p).1 (b.onGrid p).2 = ratio b.mid b.den / 10 ^ p := by
  unfold Basin.onGrid ratio
  split
  · rename_i hp
    obtain ⟨k, rfl⟩ := Int.exists_eq_neg_ofNat (Int.le_of_lt hp)
    simp
    ring
  · rename_i hp
    obtain ⟨k, rfl⟩ := Int.eq_ofNat_of_zero_le (Int.not_lt.mp hp)
    simp
    field_simp

/-- The nearer of the two integers around a fraction is no further than a half. -/
theorem nearer_bounds {n d k : Nat} (hd : 0 < d)
    (hk : (if 2 * (n % d) < d ∨ (2 * (n % d) = d ∧ n / d % 2 = 0) then n / d else n / d + 1) = k) :
    2 * n ≤ (2 * k + 1) * d ∧ 2 * k * d ≤ 2 * n + d := by
  have hdiv : n / d * d + n % d = n := Nat.div_add_mod' n d
  have hmod : n % d < d := Nat.mod_lt n hd
  generalize n / d = q at hdiv hk
  split at hk
  · subst hk
    rw [Nat.add_mul, Nat.mul_assoc]
    omega
  · subst hk
    rw [Nat.add_mul, Nat.mul_assoc, Nat.add_mul]
    omega

/-- The nearest decimal on a grid is no further from the middle than half a step. -/
theorem nearest_bounds (b : Basin) (hden : 0 < b.den) (p : Int) :
    2 * ratio b.mid b.den ≤ (2 * b.nearest p + 1) * 10 ^ p ∧
      (2 * b.nearest p - 1) * 10 ^ p ≤ 2 * ratio b.mid b.den := by
  have hpow : (0 : ℚ) < 10 ^ p := by positivity
  have hratio := ratio_onGrid b p
  have hd : 0 < (b.onGrid p).2 := by
    unfold Basin.onGrid
    split
    · exact hden
    · exact Nat.mul_pos hden (Nat.pow_pos (by decide))
  have hmid : ratio b.mid b.den = ratio (b.onGrid p).1 (b.onGrid p).2 * 10 ^ p := by
    rw [hratio]
    field_simp
  unfold Basin.nearest
  generalize b.onGrid p = r at hd hmid ⊢
  obtain ⟨n, d⟩ := r
  have hdpos : (0 : ℚ) < d := by exact_mod_cast hd
  simp only at hmid ⊢
  generalize hk : (if 2 * (n % d) < d ∨ (2 * (n % d) = d ∧ n / d % 2 = 0) then n / d
    else n / d + 1) = k
  obtain ⟨hnatle, hnatge⟩ := nearer_bounds hd hk
  have hle : (2 * n : ℚ) ≤ (2 * k + 1) * d := by exact_mod_cast hnatle
  have hge : (2 * k * d : ℚ) ≤ 2 * n + d := by exact_mod_cast hnatge
  have hhigh : 2 * ratio n d ≤ 2 * k + 1 := by
    rw [ratio, ← mul_div_assoc, div_le_iff₀ hdpos]
    exact hle
  have hlow : 2 * (k : ℚ) - 1 ≤ 2 * ratio n d := by
    rw [ratio, ← mul_div_assoc, le_div_iff₀ hdpos]
    linarith
  rw [hmid]
  constructor
  · nlinarith
  · nlinarith

/-- A number that is within a quarter of the scale of a double is rounded to it. -/
theorem roundsTo_of_near {x : Binary64} {v : ℚ}
    (hlow : (4 * x.significand - 1) * (2 : ℚ) ^ x.scale < 4 * v)
    (hhigh : 4 * v < (4 * x.significand + 1) * (2 : ℚ) ^ x.scale) : RoundsTo v x := by
  have hpow : (0 : ℚ) < 2 ^ x.scale := by positivity
  have hquarters : (1 : ℚ) ≤ x.quarters := by
    unfold quarters
    split <;> norm_num
  have hlow' : (4 * x.significand - x.quarters) * (2 : ℚ) ^ x.scale < 4 * v := by nlinarith
  have hhigh' : 4 * v < (4 * x.significand + 2) * (2 : ℚ) ^ x.scale := by nlinarith
  refine ⟨hlow'.le, hhigh'.le, ?_⟩
  rintro (htie | htie)
  · exact absurd htie hlow'.ne
  · exact absurd htie hhigh'.ne

/-- Eighteen digits tell a double apart from all others. -/
theorem roundsTo_nearest {x : Binary64} (hx : x.isFinite = true) (hpos : 0 < x.significand) :
    RoundsTo (x.basin.nearest (decimalExponent x.basin.mid x.basin.den - 17)
      * 10 ^ (decimalExponent x.basin.mid x.basin.den - 17)) x := by
  obtain ⟨up, den, hden, hlog, hup, hbasin⟩ := basin_eq hx
  obtain ⟨hbits, -, -, -⟩ := significand_cases hx
  have hpow : (0 : ℚ) < 2 ^ x.scale := by positivity
  have hdenpos : (0 : ℚ) < den := by exact_mod_cast hden
  have hbdenpos : 0 < x.basin.den := by
    rw [hbasin]
    exact hden
  have hmidpos : 0 < x.basin.mid := by
    have huppos : (0 : ℚ) < 4 * up := by
      rw [hup]
      positivity
    have huppos' : 0 < 4 * up := by exact_mod_cast huppos
    rw [hbasin]
    exact Nat.mul_pos (by omega) (by omega)
  have hmid : ratio x.basin.mid x.basin.den = x.significand * 2 ^ x.scale := by
    rw [hbasin, ratio, div_eq_iff hdenpos.ne']
    push_cast
    linear_combination (x.significand : ℚ) * hup
  have hrange : x.basin.den.log2 ≤ x.basin.mid.log2 + 4096 := by
    rw [hbasin] at hbdenpos ⊢
    simp only
    omega
  have htop := ten_zpow_decimalExponent_le hmidpos hbdenpos hrange
  obtain ⟨hhigh, hlow⟩ :=
    nearest_bounds x.basin hbdenpos (decimalExponent x.basin.mid x.basin.den - 17)
  have hstep : (10 : ℚ) ^ decimalExponent x.basin.mid x.basin.den
      = 10 ^ 17 * 10 ^ (decimalExponent x.basin.mid x.basin.den - 17) := by
    rw [← zpow_natCast, ← zpow_add₀ (by norm_num)]
    congr 1
    push_cast
    ring
  rw [hmid] at htop hhigh hlow
  rw [hstep] at htop
  have hm : (x.significand : ℚ) ≤ 2 ^ 53 := by exact_mod_cast hbits.le
  -- the double is at least `10 ^ 17` steps of the grid and at most `2 ^ 53` of its own scale
  have hgrid : 10 * (10 : ℚ) ^ (decimalExponent x.basin.mid x.basin.den - 17) < 2 ^ x.scale := by
    nlinarith
  apply roundsTo_of_near
  · linarith
  · linarith

/-- The decimal without zeros at the end is the same number. -/
theorem value_dropZeros (fuel : Nat) (r : Nat × Int) :
    ((dropZeros fuel r).1 : ℚ) * 10 ^ (dropZeros fuel r).2 = r.1 * 10 ^ r.2 := by
  induction fuel generalizing r with
  | zero => rfl
  | succ fuel ih =>
    obtain ⟨c, p⟩ := r
    rw [dropZeros]
    split
    · rename_i h
      have hc : c = 10 * (c / 10) := by omega
      rw [ih, zpow_add_one₀ (by norm_num)]
      conv_rhs => rw [hc]
      push_cast
      ring
    · rfl

/-- The shortest decimal of a positive double is rounded to it. -/
theorem roundsTo_shortest {x : Binary64} (hx : x.isFinite = true) (hpos : 0 < x.significand) :
    RoundsTo (x.shortest.1 * 10 ^ x.shortest.2) x := by
  have hlast := (basin_holds_iff hx hpos _ _).mpr (roundsTo_nearest hx hpos)
  have hfound := holds_shortestFrom hlast (show 1 + 18 = 19 from rfl) (by decide)
  rw [basin_holds_iff hx hpos] at hfound
  rw [shortest, value_dropZeros]
  exact hfound

end Binary64
end Conveyor
