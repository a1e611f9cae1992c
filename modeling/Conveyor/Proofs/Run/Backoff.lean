import Conveyor.Proofs.Binary64.Power
import Conveyor.Proofs.Outcome
import Conveyor.Run.Backoff

/-!
# The waits between attempts

Where nothing is left to chance, a wait is a power of the base, and no longer than the limit. The
power is computed first, though, and fails where it is too large to be a double. Over a base above one
there is a number of attempts from which on no wait can be worked out, whatever the limit is
(`IsPace.isCapped`).
-/

namespace Conveyor

open Binary64

/-- What is drawn is below one. -/
theorem Chance.isFinite_number (chance : Chance) : chance.number.isFinite = true := by
  unfold Chance.number
  rcases Nat.eq_zero_or_pos chance.parts.val with hnone | hpos
  · rw [hnone]
    rfl
  · have hratio : ratio chance.parts.val 9007199254740992 < 1 := by
      rw [ratio, div_lt_one (by norm_num)]
      exact_mod_cast chance.parts.isLt
    have hnonneg : 0 ≤ ratio chance.parts.val 9007199254740992 := by
      rw [ratio]
      positivity
    exact ((isNext_ofRatio hpos (by decide)).isFinite_iff hnonneg).mpr
      (hratio.trans one_lt_ceiling)

namespace Backoff

/-- A base in rational numbers. -/
def baseValue : Base → ℚ
  | .inl b => b
  | .inr x => x.value

/-- A base is a whole number or a finite double. -/
def baseIsFinite : Base → Bool
  | .inl _ => true
  | .inr x => x.isFinite

/-- Whether a number can be the exponent of a base. -/
def fits (base : Base) (n : Nat) : Bool :=
  match base with
  | .inl _ => true
  | .inr _ => (Binary64.ofInt n).isFinite

/-- The exponent as which a number is taken. -/
def exponent (base : Base) (n : Nat) : Nat :=
  match base with
  | .inl _ => n
  | .inr _ => (Binary64.ofInt n).truncate.toNat

/-- The power of a base as it is computed. -/
def computed (base : Base) (k : Nat) : Binary64 :=
  match base with
  | .inl b => .ofInt (b ^ k)
  | .inr x => x.pow k

variable {base : Base} {n n' k k' : Nat}

/-! ## Powers -/

/-- The exponent of a double is the double next to the number. -/
theorem exponent_inr {x : Binary64} (hn : 0 < n) (h : fits (.inr x) n = true) :
    (Binary64.ofInt n).truncate = exponent (.inr x) n ∧ 0 < exponent (.inr x) n ∧
      (exponent (.inr x) n : ℚ) = place n := by
  obtain ⟨k, hk, hvalue⟩ := exists_value_ofInt hn h
  have htruncate : (Binary64.ofInt n).truncate = k := truncate_of_value hvalue
  have hexponent : exponent (.inr x) n = k := by rw [exponent, htruncate, Int.toNat_natCast]
  rw [hexponent]
  refine ⟨htruncate, hk, ?_⟩
  rw [← (isNext_ofInt hn).rank, rank, if_pos (show (Binary64.ofInt n).isFinite = true from h), hvalue]

theorem exponent_pos (hn : 0 < n) (h : fits base n = true) : 0 < exponent base n := by
  cases base with
  | inl b => exact hn
  | inr x => exact (exponent_inr hn h).2.1

theorem fits_iff (hn : 0 < n) (base : Base) :
    fits base n = true ↔ base.isLeft = true ∨ (n : ℚ) < ceiling := by
  cases base with
  | inl b => simp [fits]
  | inr x =>
    have hfinite := (isNext_ofInt hn).isFinite_iff (Nat.cast_nonneg n)
    simpa [fits] using hfinite

theorem fits_of_le (hn : 0 < n) (hle : n ≤ n') (h : fits base n' = true) : fits base n = true := by
  rw [fits_iff (by omega)] at h ⊢
  have hcast : (n : ℚ) ≤ n' := by exact_mod_cast hle
  exact h.imp_right hcast.trans_lt

theorem exponent_mono (hn : 0 < n) (hle : n ≤ n') (h : fits base n' = true) :
    exponent base n ≤ exponent base n' := by
  cases base with
  | inl b => exact hle
  | inr x =>
    have hcast : (n : ℚ) ≤ n' := by exact_mod_cast hle
    have hplace := place_mono (Nat.cast_nonneg n) hcast
    rw [← (exponent_inr (x := x) (by omega) h).2.2,
      ← (exponent_inr (x := x) hn (fits_of_le hn hle h)).2.2] at hplace
    exact_mod_cast hplace

theorem fits_of_lt (hlt : n < 2 ^ 53) (hn : 0 < n) (base : Base) :
    fits base n = true ∧ exponent base n = n := by
  cases base with
  | inl b => exact ⟨rfl, rfl⟩
  | inr x =>
    obtain ⟨hfinite, -, hvalue⟩ := ofInt_whole hn hlt
    refine ⟨hfinite, ?_⟩
    rw [exponent, truncate_of_value hvalue, Int.toNat_natCast]

theorem le_exponent (hn : 2 ^ 63 ≤ n) (h : fits base n = true) : 2 ^ 63 ≤ exponent base n := by
  have hsame : exponent base (2 ^ 63) = 2 ^ 63 := by
    cases base with
    | inl b => rfl
    | inr x =>
      have htruncate : (Binary64.ofInt (2 ^ 63 : Nat)).truncate = 2 ^ 63 := by decide +kernel
      rw [exponent, htruncate]
      rfl
  rw [← hsame]
  exact exponent_mono (Nat.two_pow_pos 63) hn h

theorem power_eq (hfinite : baseIsFinite base = true) (hn : 0 < n) (h : fits base n = true) :
    power base n = finite (computed base (exponent base n)) := by
  cases base with
  | inl b =>
    have hsign : (0 : Int) ≤ n := by omega
    rw [power, if_pos hsign]
    rfl
  | inr x =>
    obtain ⟨htruncate, -, -⟩ := exponent_inr hn h
    have hfits : finite (.ofInt n) = .ok (.ofInt n) :=
      if_pos (show (Binary64.ofInt n).isFinite = true from h)
    have hsign : ¬ (x.isZero = true ∧ (exponent (.inr x) n : Int) < 0) := fun ⟨_, hneg⟩ => by omega
    rw [power, doublePower, hfits]
    show (if x.isZero = true ∧ (Binary64.ofInt n).truncate < 0 then _ else _) = _
    rw [htruncate, if_neg hsign]
    exact if_pos hfinite

theorem power_of_not_fits (h : fits base n = false) : power base n = .error .overflow := by
  cases base with
  | inl b => cases h
  | inr x =>
    have hfits : finite (.ofInt n) = .error .overflow :=
      if_neg (by rw [show (Binary64.ofInt n).isFinite = false from h]; decide)
    rw [power, doublePower, hfits]
    rfl

/-- The power as it is computed is rounded from a number that is hardly below the power. -/
structure Nearly (b : ℚ) (k : Nat) (v : ℚ) : Prop where
  nonneg : 0 ≤ v
  low : b ^ k * (1 - Wide.slack) ^ (2 * k) ≤ v
  high : v ≤ b ^ k
  one : b = 1 → v = 1

theorem nearly_pow {b : ℚ} (hb : 0 ≤ b) (k : Nat) : Nearly b k (b ^ k) where
  nonneg := pow_nonneg hb k
  low := mul_le_of_le_one_right (pow_nonneg hb k)
    (pow_le_one₀ (sub_nonneg.mpr Wide.slack_lt_one.le) (sub_le_self 1 Wide.slack_pos.le))
  high := le_rfl
  one := fun hone => by rw [hone, one_pow]

/-- Every power of the number zero is zero. -/
theorem isNext_computed_zero (hfinite : baseIsFinite base = true) (hnone : baseValue base = 0)
    (hk : 0 < k) : (computed base k).IsNext 0 := by
  have hzero : ∀ negative, (⟨negative, 0, 0⟩ : Binary64).IsNext 0 := fun negative =>
    ⟨rfl, by rw [rank_zero, place_zero]⟩
  cases base with
  | inl b =>
    have hb : b = 0 := by
      have hcast : (b : ℚ) = 0 := hnone
      exact_mod_cast hcast
    rw [computed, hb, zero_pow hk.ne']
    exact hzero false
  | inr x =>
    have hsignificand : x.significand = 0 := by
      have hsigned : x.signed = 0 := by
        have hpow : (2 : ℚ) ^ x.scale ≠ 0 := (zpow_pos two_pos _).ne'
        have hcast := (mul_eq_zero.mp (show x.signed * (2 : ℚ) ^ x.scale = 0 from hnone))
        exact_mod_cast hcast.resolve_right hpow
      unfold signed at hsigned
      split at hsigned <;> omega
    have hx : x.isFinite = true := hfinite
    have hnan := isNan_eq_false hx
    have hisZero : x.isZero = true := by simp [isZero, hx, hsignificand]
    have hk' : (k : Int) ≠ 0 := by omega
    have hpos : (0 : Int) < k := by omega
    show (x.pow k).IsNext 0
    unfold pow
    rw [hnan, hisZero, isInfinite_eq_false hx, if_neg hk', if_neg Bool.false_ne_true,
      Bool.false_or, if_pos rfl, decide_eq_true hpos, if_neg (by decide)]
    exact hzero _

theorem exists_computed (hfinite : baseIsFinite base = true) (hbase : 0 ≤ baseValue base)
    (hk : 0 < k) :
    ∃ v, (computed base k).IsNext v ∧ Nearly (baseValue base) k v := by
  rcases hbase.eq_or_lt with hnone | hpos
  · have hnearly := nearly_pow hbase k
    rw [← hnone] at hnearly ⊢
    rw [zero_pow hk.ne'] at hnearly
    exact ⟨0, isNext_computed_zero hfinite hnone.symm hk, hnearly⟩
  · cases base with
    | inl b =>
      have hb : 0 < b := by
        have hcast : (0 : ℚ) < b := hpos
        exact_mod_cast hcast
      obtain ⟨m, rfl⟩ := Int.eq_ofNat_of_zero_le hb.le
      have hm : 0 < m ^ k := Nat.pow_pos (by omega)
      refine ⟨_, ?_, nearly_pow hbase k⟩
      have hnext := isNext_ofInt hm
      push_cast at hnext
      exact hnext
    | inr x =>
      obtain ⟨v, hnext, hlow, hhigh, hone⟩ := isNext_pow hfinite hpos hk
      refine ⟨v, hnext, ?_, hlow, hhigh, hone⟩
      refine le_trans ?_ hlow
      have hrest := sub_pos.mpr Wide.slack_lt_one
      exact mul_nonneg (pow_nonneg hbase k) (pow_nonneg hrest.le _)

/-- A base above one is above it by what a double can tell. -/
theorem one_add_le_baseValue (hfinite : baseIsFinite base = true) (hone : 1 < baseValue base) :
    1 + 1 / 2 ^ 52 ≤ baseValue base := by
  -- a whole number above one is two at least
  have hwhole : ∀ b : Int, (1 : ℚ) < b → (1 + 1 / 2 ^ 52 : ℚ) ≤ b := by
    intro b hb
    have htwo : (2 : ℚ) ≤ b := by
      have hlt : 1 < b := by exact_mod_cast hb
      exact_mod_cast (by omega : (2 : Int) ≤ b)
    refine le_trans ?_ htwo
    norm_num
  cases base with
  | inl b => exact hwhole b hone
  | inr x =>
    obtain ⟨-, -, hvalue⟩ := of_value_pos (lt_trans one_pos hone)
    obtain ⟨hsignificand, -⟩ := significand_cases hfinite
    have hbase : baseValue (.inr x) = x.value := rfl
    rw [hbase] at hone ⊢
    rw [hvalue] at hone ⊢
    rcases le_or_gt 0 x.scale with hscale | hscale
    · obtain ⟨e, he⟩ := Int.eq_ofNat_of_zero_le hscale
      rw [he, zpow_natCast] at hone ⊢
      have hcast := hwhole (x.significand * 2 ^ e) (by push_cast; exact hone)
      push_cast at hcast
      exact hcast
    · obtain ⟨e, he⟩ := Int.exists_eq_neg_ofNat hscale.le
      have hpow : (0 : ℚ) < 2 ^ e := by positivity
      rw [he, zpow_neg, zpow_natCast, ← div_eq_mul_inv] at hone ⊢
      rw [one_lt_div hpow] at hone
      have hlt : 2 ^ e < x.significand := by exact_mod_cast hone
      have hbits : 2 ^ e < 2 ^ 53 := hlt.trans hsignificand
      have he' : e ≤ 52 := Nat.le_of_lt_succ ((Nat.pow_lt_pow_iff_right (by decide)).mp hbits)
      have hstep : (2 : ℚ) ^ e + 1 ≤ x.significand := by exact_mod_cast hlt
      have hunit : (1 : ℚ) / 2 ^ 52 ≤ 1 / 2 ^ e :=
        one_div_le_one_div_of_le hpow (pow_le_pow_right₀ one_le_two he')
      calc (1 : ℚ) + 1 / 2 ^ 52 ≤ 1 + 1 / 2 ^ e := by linarith
        _ = (2 ^ e + 1) / 2 ^ e := by rw [add_div, div_self hpow.ne']
        _ ≤ x.significand / 2 ^ e := by gcongr

/-- A larger power is larger as it is computed. -/
theorem Nearly.le {b v v' : ℚ} (hb : 1 ≤ b) (hstep : 1 < b → 1 + 1 / 2 ^ 52 ≤ b) (hlt : k < k')
    (h : Nearly b k v) (h' : Nearly b k' v') (hv : v' < ceiling) : v ≤ v' := by
  rcases hb.eq_or_lt with rfl | hone
  · rw [h.one rfl, h'.one rfl]
  · have hk : k' < 2 ^ 63 := by
      by_contra hge
      exact (lt_of_le_of_lt h'.low hv).not_ge
        (Wide.ceiling_le_of_large (hstep hone) (not_lt.mp hge))
    exact h.high.trans ((Wide.pow_le_of_lt (hstep hone) hlt hk).trans h'.low)

/-! ## Waits -/

/-- The wait after the attempts of a number is worked out: its power is small enough. -/
structure Worked (base : Base) (m : Binary64) (n : Nat) (v : ℚ) (d : Binary64) : Prop where
  fits : fits base n = true
  nearly : Nearly (baseValue base) (exponent base n) v
  lt : v < ceiling
  delay_eq : delay base .zero (some m) n = .ok fun _ => d
  isNan : d.isNan = false
  rank : d.rank = min m.value (place v)

/-- It cannot be worked out: the number or its power is too large. -/
structure Failed (base : Base) (m : Binary64) (n : Nat) : Prop where
  large : fits base n = true → ∃ v, Nearly (baseValue base) (exponent base n) v ∧ ceiling ≤ v
  delay_eq : delay base .zero (some m) n = .error .overflow

variable {m : Binary64}

/-- Where nothing is left to chance, it does not count what is drawn. -/
theorem within_zero (chance : Chance) : chance.within .zero = .zero := by
  have hfinite := chance.isFinite_number
  -- a zero of either sign, to which zero is added
  have hnone : ∃ z, zero.mul chance.number = ⟨z, 0, 0⟩ := by
    refine ⟨zero.negative != chance.number.negative, ?_⟩
    obtain ⟨d, hratio⟩ : ∃ d, zero.toRatio = (0, d) := by
      rw [toRatio]
      split <;> exact ⟨_, rfl⟩
    rw [mul, isNan_eq_false hfinite, isInfinite_eq_false hfinite, hratio]
    simp only [Int.natAbs_zero, Nat.zero_mul, ofRatio]
    rfl
  obtain ⟨z, hz⟩ := hnone
  rw [Chance.within, hz]
  cases z <;> decide +kernel

/-- What is wrong with a wait is wrong with its power, whatever is left to chance. -/
theorem delay_eq_error_iff {jitter : Binary64} {limit : Option Binary64} {i : Int} {f : Fault} :
    delay base jitter limit i = .error f ↔ power base i = .error f := by
  rw [delay, Outcome.bind_eq_error_iff]
  exact ⟨fun h => h.resolve_right (fun ⟨_, _, hdrawn⟩ => nomatch hdrawn), .inl⟩

theorem delay_eq_ok_iff {jitter : Binary64} {limit : Option Binary64} {i : Int}
    {wait : Chance → Binary64} :
    delay base jitter limit i = .ok wait ↔
      ∃ d, power base i = .ok d ∧ wait = fun chance => capped limit (d.add (chance.within jitter)) := by
  rw [delay, Outcome.bind_eq_ok_iff]
  refine exists_congr fun d => and_congr_right fun _ => ?_
  exact ⟨fun h => (Except.ok.inj h).symm, fun h => congrArg Except.ok h.symm⟩

theorem finite_eq_ok_iff {x d : Binary64} : finite x = .ok d ↔ x.isFinite = true ∧ d = x := by
  unfold finite
  split
  · rename_i h
    exact ⟨fun hx => ⟨h, (Except.ok.inj hx).symm⟩, fun hx => congrArg Except.ok hx.2.symm⟩
  · rename_i h
    exact ⟨nofun, fun hx => absurd hx.1 h⟩

/-- The powers of a finite base are finite. -/
theorem isFinite_of_power {i : Int} {d : Binary64} (hfinite : baseIsFinite base = true)
    (h : power base i = .ok d) : d.isFinite = true := by
  have hfin : ∀ {x}, finite x = .ok d → d.isFinite = true := by
    intro x hx
    obtain ⟨hx, rfl⟩ := finite_eq_ok_iff.mp hx
    exact hx
  have hdouble : ∀ {x : Binary64}, x.isFinite = true → doublePower x i = .ok d →
      d.isFinite = true := by
    intro x hx hpower
    obtain ⟨k, -, hk⟩ := Outcome.bind_eq_ok_iff.mp hpower
    simp only [hx, if_true] at hk
    split at hk
    · cases hk
    · exact hfin hk
  cases base with
  | inl b =>
    rw [power] at h
    split at h
    · exact hfin h
    · obtain ⟨x, hx, hpower⟩ := Outcome.bind_eq_ok_iff.mp h
      obtain ⟨hof, rfl⟩ := finite_eq_ok_iff.mp hx
      exact hdouble hof hpower
  | inr x => exact hdouble hfinite h

/-- The limit bounds every wait, whatever is drawn. -/
theorem delay_le {jitter : Binary64} {i : Int} {wait : Chance → Binary64}
    (hfinite : baseIsFinite base = true) (hm : m.isNan = false) (hjitter : jitter.isFinite = true)
    (h : delay base jitter (some m) i = .ok wait) (chance : Chance) :
    (wait chance).le m = true := by
  obtain ⟨d, hpower, rfl⟩ := delay_eq_ok_iff.mp h
  have hd : (d.add (chance.within jitter)).isNan = false :=
    isNan_add (isFinite_of_power hfinite hpower)
      (isNan_add rfl (isNan_mul hjitter chance.isFinite_number))
  show (capped (some m) _).le m = true
  unfold capped
  dsimp only
  split
  · exact (le_iff hm hm).mpr le_rfl
  · rename_i hnot
    rwa [lt_iff_not_le hd hm, Bool.not_eq_false] at hnot

theorem delay_of_power {y : Binary64} (hm : m.isFinite = true) (hy : y.isFinite = true)
    (hvalue : 0 ≤ y.value) (hpower : power base n = .ok y) :
    ∃ d, delay base .zero (some m) n = .ok (fun _ => d) ∧ d.isNan = false ∧
      d.rank = min m.value y.value := by
  obtain ⟨hnan, hrank⟩ := rank_add_zero hy hvalue
  have hm' := isNan_eq_false hm
  have hmrank : m.rank = m.value := if_pos hm
  refine ⟨capped (some m) (y.add .zero), ?_, ?_, ?_⟩
  · rw [delay, hpower]
    simp only [within_zero]
    rfl
  · unfold capped
    dsimp only
    split
    · exact hm'
    · exact hnan
  · have hlt := lt_iff hm' hnan
    rw [hrank, hmrank] at hlt
    unfold capped
    dsimp only
    split
    · rename_i h
      rw [hmrank, min_eq_left (hlt.mp h).le]
    · rename_i h
      rw [hrank, min_eq_right (not_lt.mp (mt hlt.mpr h))]

/-- One or the other. -/
theorem worked_or_failed (hfinite : baseIsFinite base = true) (hbase : 0 ≤ baseValue base)
    (hm : m.isFinite = true) (hn : 0 < n) :
    (∃ v d, Worked base m n v d) ∨ Failed base m n := by
  cases hfits : fits base n with
  | false =>
    refine .inr ⟨by rw [hfits]; exact nofun, ?_⟩
    rw [delay, power_of_not_fits hfits]
    rfl
  | true =>
    have hpower := power_eq hfinite hn hfits
    obtain ⟨v, hnext, hnearly⟩ := exists_computed hfinite hbase (exponent_pos hn hfits)
    have hiff := hnext.isFinite_iff hnearly.nonneg
    rcases lt_or_ge v ceiling with hlt | hge
    · have hy := hiff.mpr hlt
      have hvalue : (computed base (exponent base n)).value = place v := by
        rw [← hnext.rank, rank, if_pos hy]
      obtain ⟨d, hdelay, hnan, hrank⟩ := delay_of_power (m := m) hm hy
        (by rw [hvalue]; exact place_nonneg v) (by rw [hpower, finite, if_pos hy])
      rw [hvalue] at hrank
      exact .inl ⟨v, d, hfits, hnearly, hlt, hdelay, hnan, hrank⟩
    · refine .inr ⟨fun _ => ⟨v, hnearly, hge⟩, ?_⟩
      rw [delay, hpower, finite, if_neg (mt hiff.mp hge.not_gt)]
      rfl

/-- A wait that is worked out is finite, not negative and at most the limit. -/
theorem Worked.capped {v : ℚ} {d : Binary64} (h : Worked base m n v d) (hm : m.isFinite = true)
    (hvalue : 0 ≤ m.value) : d.isFinite = true ∧ zero.le d = true ∧ d.le m = true := by
  have hm' := isNan_eq_false hm
  have hmrank : m.rank = m.value := if_pos hm
  have hhigh : d.rank ≤ m.rank := by rw [h.rank, hmrank]; exact min_le_left _ _
  have hlow : zero.rank ≤ d.rank := by
    rw [h.rank, show zero.rank = 0 from rank_zero false]
    exact le_min hvalue (place_nonneg v)
  refine ⟨?_, (le_iff rfl h.isNan).mpr hlow, (le_iff h.isNan hm').mpr hhigh⟩
  -- an infinity is above the limit, or below zero
  have hlimit := (abs_lt.mp (abs_value_lt hm)).2
  have hpos := limit_pos
  by_contra hinfinite
  rw [show zero.rank = 0 from rank_zero false] at hlow
  unfold Binary64.rank at hlow hhigh
  rw [if_neg hinfinite, if_pos hm] at hhigh
  rw [if_neg hinfinite] at hlow
  split at hlow
  · linarith
  · rename_i hpositive
    rw [if_neg hpositive] at hhigh
    linarith

/-- Where a wait can be worked out, so could those before it, and they were not longer. -/
theorem Worked.earlier {v : ℚ} {d : Binary64} (h : Worked base m n' v d)
    (hfinite : baseIsFinite base = true) (hone : 1 ≤ baseValue base) (hm : m.isFinite = true)
    (hn : 0 < n) (hle : n ≤ n') :
    ∃ e, delay base .zero (some m) n = .ok (fun _ => e) ∧ e.le d = true := by
  have hfits := fits_of_le hn hle h.fits
  have hn' : 0 < n' := by omega
  rcases (exponent_mono hn hle h.fits).eq_or_lt with hsame | hlt
  · refine ⟨d, ?_, (le_iff h.isNan h.isNan).mpr le_rfl⟩
    rw [← h.delay_eq, delay, delay, power_eq hfinite hn hfits, power_eq hfinite hn' h.fits, hsame]
  · have hbelow : ∀ {u}, Nearly (baseValue base) (exponent base n) u → u ≤ v := fun hu =>
      hu.le hone (one_add_le_baseValue hfinite) hlt h.nearly h.lt
    rcases worked_or_failed hfinite (one_pos.le.trans hone) hm hn with ⟨u, e, he⟩ | hfailed
    · refine ⟨e, he.delay_eq, (le_iff he.isNan h.isNan).mpr ?_⟩
      rw [he.rank, h.rank]
      exact min_le_min_left _ (place_mono he.nearly.nonneg (hbelow he.nearly))
    · obtain ⟨u, hu, hceiling⟩ := hfailed.large hfits
      exact absurd h.lt (hceiling.trans (hbelow hu)).not_gt

theorem Failed.not_ok {d : Chance → Binary64} (h : Failed base m n) :
    delay base .zero (some m) n ≠ .ok d := by
  rw [h.delay_eq]
  exact nofun

/-- Over a base of at most one only the number itself can be too large. -/
theorem failed_iff_of_le_one (hfinite : baseIsFinite base = true) (hbase : 0 ≤ baseValue base)
    (hone : baseValue base ≤ 1) (hm : m.isFinite = true) (hn : 0 < n) :
    delay base .zero (some m) n = .error .overflow ↔ base.isLeft = false ∧ ceiling ≤ n := by
  have hfits := fits_iff hn base
  rcases worked_or_failed hfinite hbase hm hn with ⟨v, d, h⟩ | h
  · have hwithin := hfits.mp h.fits
    rw [h.delay_eq]
    refine ⟨nofun, fun ⟨hright, hlarge⟩ => ?_⟩
    rw [hright] at hwithin
    exact absurd hlarge (hwithin.resolve_left Bool.false_ne_true).not_ge
  · refine ⟨fun _ => ?_, fun _ => h.delay_eq⟩
    have hnot : ¬ fits base n = true := by
      intro hwithin
      obtain ⟨v, hnearly, hlarge⟩ := h.large hwithin
      have hsmall := hnearly.high.trans (pow_le_one₀ hbase hone)
      exact (hlarge.trans hsmall).not_gt one_lt_ceiling
    rw [hfits, not_or, Bool.not_eq_true, not_lt] at hnot
    exact hnot

/-- Over a base above one no wait can be worked out in the end. -/
theorem failed_of_large (hfinite : baseIsFinite base = true) (hone : 1 < baseValue base)
    (hm : m.isFinite = true) (hn : 2 ^ 63 ≤ n) : Failed base m n := by
  rcases worked_or_failed hfinite (one_pos.trans hone).le hm
      ((Nat.two_pow_pos 63).trans_le hn) with ⟨v, d, h⟩ | h
  · have hlarge := Wide.ceiling_le_of_large (one_add_le_baseValue hfinite hone)
      (le_exponent hn h.fits)
    exact absurd h.lt (hlarge.trans h.nearly.low).not_gt
  · exact h

/-- The waits that can be worked out over a base above one are those up to some number. -/
theorem exists_last (hfinite : baseIsFinite base = true) (hone : 1 < baseValue base)
    (hm : m.isFinite = true) :
    ∃ last, ∀ n : Nat, 0 < n → ((∃ d, delay base .zero (some m) n = .ok d) ↔ n ≤ last) := by
  classical
  have hexists : ∃ n : Nat, 0 < n ∧ ¬ ∃ d, delay base .zero (some m) n = .ok d :=
    ⟨2 ^ 63, by decide, fun ⟨_, hd⟩ => (failed_of_large hfinite hone hm le_rfl).not_ok hd⟩
  obtain ⟨hpos, hnone⟩ := Nat.find_spec hexists
  refine ⟨Nat.find hexists - 1, fun n hn => ⟨fun ⟨d, hd⟩ => ?_, fun hle => ?_⟩⟩
  · by_contra hlate
    rcases worked_or_failed hfinite (one_pos.trans hone).le hm hn with ⟨v, d', h⟩ | h
    · obtain ⟨e, he, -⟩ := h.earlier hfinite hone.le hm hpos (by omega)
      exact hnone ⟨_, he⟩
    · exact h.not_ok hd
  · by_contra hnone'
    exact Nat.find_min hexists (by omega) ⟨hn, hnone'⟩

/-- The exact power decides, but for a gap too narrow to tell. -/
theorem decided (hfinite : baseIsFinite base = true) (hbase : 0 ≤ baseValue base)
    (hm : m.isFinite = true) (hn : 0 < n) (hlt : n < 2 ^ 53) :
    (baseValue base ^ n < ceiling → ∃ d, delay base .zero (some m) n = .ok d) ∧
      (limit ≤ baseValue base ^ n → delay base .zero (some m) n = .error .overflow) := by
  obtain ⟨hfits, hexponent⟩ := fits_of_lt hlt hn base
  rcases worked_or_failed hfinite hbase hm hn with ⟨v, d, h⟩ | h
  · refine ⟨fun _ => ⟨_, h.delay_eq⟩, fun hlarge => ?_⟩
    have hnearly := h.nearly
    rw [hexponent] at hnearly
    exact absurd h.lt ((Wide.ceiling_le_of_limit_le hlarge hlt).trans hnearly.low).not_gt
  · refine ⟨fun hsmall => ?_, fun _ => h.delay_eq⟩
    obtain ⟨v, hnearly, hlarge⟩ := h.large hfits
    rw [hexponent] at hnearly
    exact absurd hsmall (hlarge.trans hnearly.high).not_gt

/-- A base and a limit that are finite and not negative. -/
structure IsPace (base : Base) (m : Binary64) : Prop where
  baseFinite : baseIsFinite base = true
  baseNonneg : 0 ≤ baseValue base
  limitFinite : m.isFinite = true
  limitNonneg : 0 ≤ m.value

/-- What holds of the waits over a base up to a limit. -/
structure IsCapped (base : Base) (m : Binary64) : Prop where
  /-- A wait is worked out, and the limit bounds it; or its power has overflowed. -/
  bounded : ∀ n : Nat, 0 < n →
    (∃ d, delay base .zero (some m) n = .ok (fun _ => d) ∧
      d.isFinite = true ∧ zero.le d = true ∧ d.le m = true) ∨
      delay base .zero (some m) n = .error .overflow
  grows : 1 ≤ baseValue base → ∀ (n n' : Nat) (d' : Binary64), 0 < n → n ≤ n' →
    delay base .zero (some m) n' = .ok (fun _ => d') →
      ∃ d, delay base .zero (some m) n = .ok (fun _ => d) ∧ d.le d' = true
  small : baseValue base ≤ 1 → ∀ n : Nat, 0 < n →
    (delay base .zero (some m) n = .error .overflow ↔ base.isLeft = false ∧ ceiling ≤ n)
  large : 1 < baseValue base → ∃ last, ∀ n : Nat, 0 < n →
    ((∃ d, delay base .zero (some m) n = .ok d) ↔ n ≤ last)
  /-- The exact power decides, but for a gap too narrow to tell. -/
  decided : ∀ n : Nat, 0 < n → n < 2 ^ 53 →
    (baseValue base ^ n < ceiling → ∃ d, delay base .zero (some m) n = .ok d) ∧
      (limit ≤ baseValue base ^ n → delay base .zero (some m) n = .error .overflow)

theorem IsPace.isCapped (h : IsPace base m) : IsCapped base m where
  bounded := by
    intro n hn
    rcases worked_or_failed h.baseFinite h.baseNonneg h.limitFinite hn with ⟨v, d, hd⟩ | hd
    · exact .inl ⟨d, hd.delay_eq, hd.capped h.limitFinite h.limitNonneg⟩
    · exact .inr hd.delay_eq
  grows := by
    intro hone n n' d' hn hle hd'
    rcases worked_or_failed h.baseFinite h.baseNonneg h.limitFinite (hn.trans_le hle) with
      ⟨v, d, hd⟩ | hd
    · have hsame := hd.delay_eq
      rw [hd'] at hsame
      obtain rfl : d' = d := congrFun (Except.ok.inj hsame) .least
      exact hd.earlier h.baseFinite hone h.limitFinite hn hle
    · exact absurd hd' hd.not_ok
  small := fun hone _ hn =>
    failed_iff_of_le_one h.baseFinite h.baseNonneg hone h.limitFinite hn
  large := fun hone => exists_last h.baseFinite hone h.limitFinite
  decided := fun _ hn hlt => decided h.baseFinite h.baseNonneg h.limitFinite hn hlt

end Backoff
end Conveyor
