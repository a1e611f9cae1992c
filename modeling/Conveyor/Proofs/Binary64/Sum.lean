import Conveyor.Binary64.Arithmetic
import Conveyor.Proofs.Binary64.Order

/-!
# Sums of doubles

A larger fraction is never rounded to a smaller double, so adding the same to two doubles never
turns their order round. It may only make them equal.
-/

namespace Conveyor

theorem roundHalfEven_le_succ (n d : Nat) :
    n / d ≤ roundHalfEven n d ∧ roundHalfEven n d ≤ n / d + 1 := by
  unfold roundHalfEven
  simp only
  split
  · exact ⟨Nat.le_succ _, Nat.le_refl _⟩
  · exact ⟨Nat.le_refl _, Nat.le_succ _⟩

/-- A larger fraction is not rounded to a smaller integer. -/
theorem roundHalfEven_mono {a b c d : Nat} (hb : 0 < b) (hd : 0 < d) (h : a * d ≤ c * b) :
    roundHalfEven a b ≤ roundHalfEven c d := by
  have hquotient : a / b ≤ c / d := by
    rw [Nat.le_div_iff_mul_le hd]
    refine Nat.le_of_mul_le_mul_right ?_ hb
    calc a / b * d * b = a / b * b * d := by ring
      _ ≤ a * d := Nat.mul_le_mul_right d (Nat.div_mul_le_self a b)
      _ ≤ c * b := h
  rcases Nat.lt_or_ge (a / b) (c / d) with hlt | hge
  · exact (roundHalfEven_le_succ a b).2.trans
      ((Nat.succ_le_of_lt hlt).trans (roundHalfEven_le_succ c d).1)
  · -- the integer parts are equal, so the remainders decide
    have hsame : a / b = c / d := Nat.le_antisymm hquotient hge
    have ha : a / b * b + a % b = a := Nat.div_add_mod' a b
    have hc : c / d * d + c % d = c := Nat.div_add_mod' c d
    have hrest : a % b * d ≤ c % d * b := by
      rw [← ha, ← hc, hsame] at h
      nlinarith
    have hup : b < 2 * (a % b) → d < 2 * (c % d) := by
      intro hlt
      by_contra hle
      nlinarith
    have htie : 2 * (a % b) = b → d ≤ 2 * (c % d) := by
      intro heq
      by_contra hlt
      nlinarith
    unfold roundHalfEven
    simp only [hsame]
    split
    · rename_i hrounds
      rw [if_pos]
      rcases hrounds with hlt | ⟨heq, hodd⟩
      · exact .inl (hup hlt)
      · rcases Nat.lt_or_ge d (2 * (c % d)) with hlt | hge
        · exact .inl hlt
        · exact .inr ⟨Nat.le_antisymm hge (htie heq), hodd⟩
    · split
      · exact Nat.le_succ _
      · exact Nat.le_refl _

namespace Binary64

/-! ## Rounding to a double -/

theorem IsScale.mono {v v' : ℚ} {q q' : Int} (h : IsScale v q) (h' : IsScale v' q') (hle : v ≤ v') :
    q ≤ q' := by
  rcases h.above with hq | hq
  · rw [hq]
    exact h'.least
  · have hlt := two_zpow_lt (hq.trans hle) h'.below
    omega

theorem rank_infinity (negative : Bool) :
    (infinity negative).rank = if negative then -limit else limit := by
  rw [rank, infinity, if_neg (by simp [isFinite])]

theorem rank_of_finite {x : Binary64} {m : Nat} {q : Int} (hx : x.isFinite = true)
    (positive : x.negative = false) (hm : x.significand = m) (hq : x.scale = q) :
    x.rank = min ((m : ℚ) * 2 ^ q) limit := by
  have hvalue : x.value = m * 2 ^ q := by
    rw [value, signed, positive, if_neg Bool.false_ne_true, hm, hq, Int.cast_natCast]
  have hlt := (abs_lt.mp (abs_value_lt hx)).2
  rw [rank, if_pos hx, min_eq_left (by rw [← hvalue]; exact hlt.le), hvalue]

/-- The place of a double of at most 53 bits. -/
theorem rank_assemble_of_lt {m : Nat} {q : Int} (hm : m < 2 ^ 53) (least : -1074 ≤ q)
    (normal : q = -1074 ∨ 2 ^ 52 ≤ m) :
    (assemble false m q).rank = min ((m : ℚ) * 2 ^ q) limit := by
  have hsmall : ¬ 9007199254740992 ≤ m := by omega
  unfold assemble
  simp only [if_neg hsmall]
  split
  · rename_i hbits
    obtain rfl : q = -1074 := normal.resolve_right (by omega)
    have hfraction : ((Fin.ofNat 4503599627370496 m : Fin _) : Nat) = m := Nat.mod_eq_of_lt hbits
    exact rank_of_finite rfl rfl hfraction rfl
  · rename_i hbits
    split
    · rename_i hbeyond
      rw [rank_infinity, if_neg Bool.false_ne_true, min_eq_right]
      have hm' : (2 : ℚ) ^ (52 : Int) ≤ m := by
        rw [show (2 : ℚ) ^ (52 : Int) = ((2 ^ 52 : Nat) : ℚ) by norm_num]
        exact_mod_cast (by omega : 2 ^ 52 ≤ m)
      have hq : (2 : ℚ) ^ (972 : Int) ≤ 2 ^ q := zpow_le_zpow_right₀ one_le_two (by omega)
      calc limit = 2 ^ (52 : Int) * 2 ^ (972 : Int) := by
            rw [limit, ← zpow_add₀ two_ne_zero]
            norm_num
        _ ≤ m * 2 ^ q := by gcongr
    · rename_i hrange
      have hexponent : ((Fin.ofNat 2048 (q + 1075).toNat : Fin _) : Nat) = (q + 1075).toNat :=
        Nat.mod_eq_of_lt (by omega)
      have hfraction : ((Fin.ofNat 4503599627370496 (m - 4503599627370496) : Fin _) : Nat) =
          m - 4503599627370496 := Nat.mod_eq_of_lt (by omega)
      have hplace : (q + 1075).toNat ≠ 0 := by omega
      refine rank_of_finite ?_ rfl ?_ ?_
      · simp only [isFinite, hexponent, ne_eq, decide_eq_true_eq]
        omega
      · simp only [significand, hexponent, hfraction, if_neg hplace]
        omega
      · simp only [scale, hexponent, if_neg hplace]
        omega

theorem rank_assemble {m : Nat} {q : Int} (hm : m ≤ 2 ^ 53) (least : -1074 ≤ q)
    (normal : q = -1074 ∨ 2 ^ 52 ≤ m) :
    (assemble false m q).rank = min ((m : ℚ) * 2 ^ q) limit := by
  rcases Nat.lt_or_eq_of_le hm with hlt | rfl
  · exact rank_assemble_of_lt hlt least normal
  · rw [assemble_carry, rank_assemble_of_lt (by norm_num) (by omega) (.inr (Nat.le_refl _)),
      zpow_add₀ two_ne_zero]
    congr 1
    push_cast
    ring

/-- A negative double stands opposite to the positive one. -/
theorem rank_assemble_neg (m : Nat) (q : Int) :
    (assemble true m q).rank = -(assemble false m q).rank := by
  have hneg : ∀ (e : Fin 2048) (f : Fin 4503599627370496),
      (⟨true, e, f⟩ : Binary64).rank = -(⟨false, e, f⟩ : Binary64).rank := by
    intro e f
    have hvalue : (⟨true, e, f⟩ : Binary64).value = -(⟨false, e, f⟩ : Binary64).value := by
      simp only [value, signed, Bool.false_eq_true, if_true, if_false]
      push_cast
      exact neg_mul _ _
    have hfinite : (⟨true, e, f⟩ : Binary64).isFinite = (⟨false, e, f⟩ : Binary64).isFinite := rfl
    rw [rank, rank, hvalue, hfinite]
    split
    · rfl
    · rfl
  unfold assemble
  simp only
  split
  · split
    · exact hneg _ _
    · split
      · exact hneg _ _
      · exact hneg _ _
  · split
    · exact hneg _ _
    · split
      · exact hneg _ _
      · exact hneg _ _

/-- The place of the double next to a positive fraction. -/
def rounded (n d : Nat) : ℚ :=
  min ((roundHalfEven (scaleDown n d (scaleFor n d)).1 (scaleDown n d (scaleFor n d)).2 : ℚ) *
    2 ^ scaleFor n d) limit

/-- The significand that a positive fraction is rounded to has at most 53 bits, or one more bit and
no other. -/
theorem significand_rounded {n d : Nat} (hn : 0 < n) (hd : 0 < d) :
    roundHalfEven (scaleDown n d (scaleFor n d)).1 (scaleDown n d (scaleFor n d)).2 ≤ 2 ^ 53 ∧
      (scaleFor n d = -1074 ∨
        2 ^ 52 ≤ roundHalfEven (scaleDown n d (scaleFor n d)).1 (scaleDown n d (scaleFor n d)).2) := by
  have hscale := isScale_scaleFor hn hd
  have hb := scaleDown_pos (n := n) hd (scaleFor n d)
  have hratio := ratio_scaleDown n d (scaleFor n d)
  have hpow : (0 : ℚ) < 2 ^ scaleFor n d := by positivity
  generalize scaleFor n d = q at *
  generalize (scaleDown n d q).1 = a at *
  generalize (scaleDown n d q).2 = b at *
  obtain ⟨hdown, hup⟩ := roundHalfEven_le_succ a b
  constructor
  · have hlt : ¬ 2 ^ 53 ≤ a / b := by
      rw [le_div_iff_le_ratio hb, hratio, le_div_iff₀ hpow, not_le]
      exact_mod_cast hscale.below
    omega
  · refine hscale.above.imp_right fun habove => le_trans ?_ hdown
    rw [le_div_iff_le_ratio hb, hratio, le_div_iff₀ hpow]
    exact_mod_cast habove

theorem rank_ofRatio {n d : Nat} (hn : 0 < n) (hd : 0 < d) (negative : Bool) :
    (ofRatio negative n d).rank = if negative then -rounded n d else rounded n d := by
  obtain ⟨hbits, hnormal⟩ := significand_rounded hn hd
  have hrank := rank_assemble hbits (isScale_scaleFor hn hd).least hnormal
  unfold ofRatio
  rw [if_neg (by omega)]
  simp only
  cases negative with
  | false => rw [hrank, if_neg Bool.false_ne_true, rounded]
  | true => rw [rank_assemble_neg, hrank, if_pos rfl, rounded]

/-- A larger positive fraction is not rounded to a smaller double. -/
theorem rounded_mono {n d n' d' : Nat} (hn : 0 < n) (hd : 0 < d) (hn' : 0 < n') (hd' : 0 < d')
    (h : ratio n d ≤ ratio n' d') : rounded n d ≤ rounded n' d' := by
  have hscale := isScale_scaleFor hn hd
  have hscale' := isScale_scaleFor hn' hd'
  obtain ⟨hbits, -⟩ := significand_rounded hn hd
  obtain ⟨-, hnormal'⟩ := significand_rounded hn' hd'
  refine min_le_min_right _ ?_
  rcases Int.lt_or_eq_of_le (hscale.mono hscale' h) with hlt | heq
  · -- the larger fraction has the larger scale, and a significand that is not small
    have hm : (roundHalfEven (scaleDown n d (scaleFor n d)).1 (scaleDown n d (scaleFor n d)).2 : ℚ) ≤
        2 ^ 53 := by exact_mod_cast hbits
    have hm' : (2 : ℚ) ^ 52 ≤
        roundHalfEven (scaleDown n' d' (scaleFor n' d')).1 (scaleDown n' d' (scaleFor n' d')).2 := by
      exact_mod_cast hnormal'.resolve_left (by have := hscale.least; omega)
    have hq : (2 : ℚ) ^ (scaleFor n d + 1) ≤ 2 ^ scaleFor n' d' :=
      zpow_le_zpow_right₀ one_le_two (by omega)
    calc _ ≤ (2 : ℚ) ^ 53 * 2 ^ scaleFor n d := by gcongr
      _ = 2 ^ 52 * 2 ^ (scaleFor n d + 1) := by
        rw [zpow_add₀ two_ne_zero]
        ring
      _ ≤ _ := by gcongr
  · rw [← heq]
    have hb := scaleDown_pos (n := n) hd (scaleFor n d)
    have hb' := scaleDown_pos (n := n') hd' (scaleFor n d)
    have hratio := ratio_scaleDown n d (scaleFor n d)
    have hratio' := ratio_scaleDown n' d' (scaleFor n d)
    have hle : ratio n d / 2 ^ scaleFor n d ≤ ratio n' d' / 2 ^ scaleFor n d := by gcongr
    rw [← hratio, ← hratio', ratio, ratio, div_le_div_iff₀ (by exact_mod_cast hb)
      (by exact_mod_cast hb')] at hle
    have hround := roundHalfEven_mono hb hb' (by exact_mod_cast hle)
    gcongr

/-- A fraction at least as large as one rounded to an infinity is rounded to one too. -/
theorem isFinite_ofRatio_of_le {n d n' d' : Nat} (hn : 0 < n) (hd : 0 < d) (hn' : 0 < n')
    (hd' : 0 < d') (h : n * d' ≤ n' * d) (hinfinite : ofRatio false n d = infinity false) :
    (ofRatio false n' d').isFinite = false := by
  have hlimit : limit = rounded n d := by
    have hrank := rank_ofRatio hn hd false
    rwa [hinfinite, rank_infinity, if_neg Bool.false_ne_true, if_neg Bool.false_ne_true] at hrank
  have hratio : ratio n d ≤ ratio n' d' := by
    rw [ratio, ratio, div_le_div_iff₀ (by exact_mod_cast hd) (by exact_mod_cast hd')]
    exact_mod_cast h
  have hle := rounded_mono hn hd hn' hd' hratio
  rw [← hlimit] at hle
  by_contra hfinite
  rw [Bool.not_eq_false] at hfinite
  have hlt := (abs_lt.mp (abs_value_lt hfinite)).2
  have hrank := rank_ofRatio hn' hd' false
  rw [rank, if_pos hfinite, if_neg Bool.false_ne_true] at hrank
  rw [hrank] at hlt
  exact hlt.not_ge hle

theorem rounded_nonneg (n d : Nat) : 0 ≤ rounded n d :=
  le_min (by positivity) limit_pos.le

/-! ## Signed fractions -/

theorem rank_zero (negative : Bool) : (⟨negative, 0, 0⟩ : Binary64).rank = 0 := by
  cases negative <;> simp [rank, isFinite, value, signed, significand]

theorem rank_ofSigned (zeroSign : Bool) (n : Int) {d : Nat} (hd : 0 < d) :
    (ofSigned zeroSign n d).rank =
      if n < 0 then -rounded n.natAbs d else if n = 0 then 0 else rounded n.natAbs d := by
  unfold ofSigned
  rcases Int.lt_trichotomy n 0 with hn | rfl | hn
  · rw [if_neg hn.ne, if_pos hn, rank_ofRatio (by omega) hd, decide_eq_true hn, if_pos rfl]
  · rw [if_pos rfl, rank_zero, if_neg (Int.lt_irrefl 0), if_pos rfl]
  · rw [if_neg hn.ne', if_neg hn.not_gt, if_neg hn.ne', rank_ofRatio (by omega) hd,
      decide_eq_false hn.not_gt, if_neg Bool.false_ne_true]

/-- A larger fraction is not rounded to a smaller double. -/
theorem rank_ofSigned_mono {z z' : Bool} {n n' : Int} {d d' : Nat} (hd : 0 < d) (hd' : 0 < d')
    (h : (n : ℚ) / d ≤ n' / d') : (ofSigned z n d).rank ≤ (ofSigned z' n' d').rank := by
  have hdq : (0 : ℚ) < d := by exact_mod_cast hd
  have hdq' : (0 : ℚ) < d' := by exact_mod_cast hd'
  have hcross : n * d' ≤ n' * d := by
    rw [div_le_div_iff₀ hdq hdq'] at h
    exact_mod_cast h
  have habs : ∀ {k : Int}, 0 < k → ((k.natAbs : Nat) : ℚ) = k := by
    intro k hk
    rw [Nat.cast_natAbs, abs_of_pos hk]
  have habs' : ∀ {k : Int}, k < 0 → ((k.natAbs : Nat) : ℚ) = -k := by
    intro k hk
    rw [Nat.cast_natAbs, abs_of_neg hk]
    push_cast
    rfl
  have hnonneg := rounded_nonneg n.natAbs d
  have hnonneg' := rounded_nonneg n'.natAbs d'
  rw [rank_ofSigned z n hd, rank_ofSigned z' n' hd']
  by_cases hn : n < 0
  · rw [if_pos hn]
    by_cases hn' : n' < 0
    · rw [if_pos hn']
      refine neg_le_neg (rounded_mono (by omega) hd' (by omega) hd ?_)
      rw [ratio, ratio, habs' hn, habs' hn', neg_div, neg_div]
      exact neg_le_neg h
    · rw [if_neg hn']
      split
      · linarith
      · linarith
  · have hn' : ¬ n' < 0 := by
      intro hlt
      have : n' * d < 0 := Int.mul_neg_of_neg_of_pos hlt (by exact_mod_cast hd)
      have : 0 ≤ n * d' := Int.mul_nonneg (by omega) (by omega)
      omega
    rw [if_neg hn, if_neg hn']
    by_cases hzero : n = 0
    · rw [if_pos hzero]
      split
      · exact le_refl _
      · exact hnonneg'
    · have hpos : 0 < n := by omega
      have hpos' : 0 < n' := by
        by_contra hle
        have hn'zero : n' = 0 := by omega
        rw [hn'zero, zero_mul] at hcross
        have : 0 < n * d' := Int.mul_pos hpos (by exact_mod_cast hd')
        omega
      rw [if_neg hzero, if_neg hpos'.ne']
      refine rounded_mono (by omega) hd (by omega) hd' ?_
      rw [ratio, ratio, habs hpos, habs hpos']
      exact h

/-! ## Sums -/

variable {t x y : Binary64}

theorem rank_le_limit (x : Binary64) : -limit ≤ x.rank ∧ x.rank ≤ limit := by
  have hpos := limit_pos
  unfold rank
  split
  · rename_i hx
    have hlt := abs_lt.mp (abs_value_lt hx)
    exact ⟨hlt.1.le, hlt.2.le⟩
  · split
    · exact ⟨le_refl _, by linarith⟩
    · exact ⟨by linarith, le_refl _⟩

theorem isNan_of_add (h : (x.add y).isNan = false) : x.isNan = false ∧ y.isNan = false := by
  unfold add at h
  split at h
  · cases h
  · rename_i hnan
    simpa using hnan

/-- The sum of two finite numbers is their exact sum, rounded. -/
theorem add_of_finite (hx : x.isFinite = true) (hy : y.isFinite = true) :
    ∃ z n d, x.add y = ofSigned z n d ∧ 0 < d ∧ ((n : ℚ) / (d : Nat)) = x.value + y.value := by
  have hxpos : (0 : ℚ) < x.toRatio.2 := by exact_mod_cast x.toRatio_pos
  have hypos : (0 : ℚ) < y.toRatio.2 := by exact_mod_cast y.toRatio_pos
  refine ⟨x.negative && y.negative, x.toRatio.1 * y.toRatio.2 + y.toRatio.1 * x.toRatio.2,
    x.toRatio.2 * y.toRatio.2, ?_, Nat.mul_pos x.toRatio_pos y.toRatio_pos, ?_⟩
  · unfold add
    rw [isNan_eq_false hx, isNan_eq_false hy, isInfinite_eq_false hx, isInfinite_eq_false hy]
    rfl
  · push_cast
    rw [toRatio_value, toRatio_value]
    field_simp

/-- An infinity stays what it is if a finite number is added. -/
theorem add_of_infinite (ht : t.isFinite = true) (hx : x.isInfinite = true) : t.add x = x := by
  have hnan : t.isNan = false ∧ x.isNan = false := by simp_all [isFinite, isInfinite, isNan]
  unfold add
  rw [hnan.1, hnan.2, isInfinite_eq_false ht, hx]
  rfl

theorem rank_of_infinite (hx : x.isInfinite = true) :
    x.rank = if x.negative then -limit else limit := by
  have hfinite : x.isFinite = false := by simp_all [isFinite, isInfinite]
  rw [rank, hfinite, if_neg Bool.false_ne_true]

/-- Adding a finite number to two doubles does not turn their order round. -/
theorem rank_add_mono_of_finite (ht : t.isFinite = true) (hx : x.isNan = false)
    (hy : y.isNan = false) (h : x.rank ≤ y.rank) : (t.add x).rank ≤ (t.add y).rank := by
  have hrank : ∀ {z : Binary64}, z.isFinite = true → z.rank = z.value := fun hz => by
    rw [rank, if_pos hz]
  rcases finite_or_infinite hx with hxf | ⟨-, hxi⟩
  · rcases finite_or_infinite hy with hyf | ⟨-, hyi⟩
    · obtain ⟨_, n, d, hsum, hd, hvalue⟩ := add_of_finite ht hxf
      obtain ⟨_, n', d', hsum', hd', hvalue'⟩ := add_of_finite ht hyf
      rw [hsum, hsum']
      refine rank_ofSigned_mono hd hd' ?_
      rw [hvalue, hvalue', ← hrank hxf, ← hrank hyf]
      exact (add_le_add_iff_left _).mpr h
    · rw [add_of_infinite ht hyi, rank_of_infinite hyi]
      cases hneg : y.negative with
      | false => exact (rank_le_limit _).2
      | true =>
        rw [rank_of_infinite hyi, hneg, if_pos rfl, hrank hxf] at h
        exact absurd (abs_lt.mp (abs_value_lt hxf)).1 (not_lt.mpr h)
  · rw [add_of_infinite ht hxi, rank_of_infinite hxi]
    cases hneg : x.negative with
    | true => exact (rank_le_limit _).1
    | false =>
      -- then the other number is infinite too
      rw [rank_of_infinite hxi, hneg, if_neg Bool.false_ne_true] at h
      rcases finite_or_infinite hy with hyf | ⟨-, hyi⟩
      · rw [hrank hyf] at h
        exact absurd (abs_lt.mp (abs_value_lt hyf)).2 (not_lt.mpr h)
      · rw [add_of_infinite ht hyi]
        exact h

/-- Adding the same to two doubles does not turn their order round. -/
theorem rank_add_mono (hx : (t.add x).isNan = false) (hy : (t.add y).isNan = false)
    (h : x.rank ≤ y.rank) : (t.add x).rank ≤ (t.add y).rank := by
  obtain ⟨htnan, hxnan⟩ := isNan_of_add hx
  obtain ⟨-, hynan⟩ := isNan_of_add hy
  rcases finite_or_infinite htnan with ht | ⟨-, ht⟩
  · exact rank_add_mono_of_finite ht hxnan hynan h
  · -- an infinite sum is the same whatever is added
    have hself : ∀ {z : Binary64}, (t.add z).isNan = false → t.add z = t := by
      intro z hz
      obtain ⟨-, hznan⟩ := isNan_of_add hz
      unfold add at hz ⊢
      rw [htnan, hznan, Bool.or_false, if_neg Bool.false_ne_true, if_pos ht] at hz ⊢
      split at hz
      · cases hz
      · rename_i hsame
        rw [if_neg hsame]
    rw [hself hx, hself hy]

/-- If the sums with the same double can be told apart, the addends stand in the same order. -/
theorem lt_of_add_lt_add (h : (t.add x).lt (t.add y) = true) : x.lt y = true := by
  have hnan := isNan_of_lt h
  rw [lt_iff (isNan_of_add hnan.1).2 (isNan_of_add hnan.2).2]
  by_contra hle
  have hmono := rank_add_mono hnan.2 hnan.1 (not_lt.mp hle)
  exact absurd ((lt_iff hnan.1 hnan.2).mp h) (not_lt.mpr hmono)

end Binary64
end Conveyor
