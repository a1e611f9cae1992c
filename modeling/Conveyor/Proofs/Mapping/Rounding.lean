import Mathlib.Algebra.Order.Field.Power
import Mathlib.Algebra.Order.Floor.Semifield
import Mathlib.Algebra.Order.Round
import Mathlib.Data.Rat.Floor
import Mathlib.Tactic.FieldSimp
import Mathlib.Tactic.Linarith
import Mathlib.Tactic.Positivity
import Mathlib.Tactic.Ring
import Conveyor.Mapping.Transform
import Conveyor.Proofs.Mapping.Address

/-!
# Rounding to integers

Without decimal places the rounding transform takes the multiple of a power of ten that is nearest to a number,
and of two the one further from zero (`IsNearest`), and refuses it if it counts more steps of this power than 28
digits can. The integers that come out are rounded to themselves (`rounded_half_away`).
-/

namespace Conveyor

-- The power `^` is the core library's, whatever else is imported.
attribute [local instance (high)] instPowNat

/-! ## The nearest multiple -/

/-- No multiple of the unit is nearer to the number, and one that is as near is not further from zero. -/
structure IsNearest (x unit : ℚ) (m : Int) : Prop where
  nearest : ∀ k : Int, |x - m * unit| ≤ |x - k * unit|
  away : ∀ k : Int, |x - k * unit| = |x - m * unit| → |k| ≤ |m|

namespace IsNearest

variable {x unit : ℚ} {m m' : Int}

theorem abs_sub_mul (hunit : 0 < unit) (x : ℚ) (k : Int) :
    |x - k * unit| = |x / unit - k| * unit := by
  rw [← abs_of_pos hunit, ← abs_mul, abs_of_pos hunit, sub_mul, div_mul_cancel₀ _ hunit.ne']

theorem floor (hunit : 0 < unit) (hx : 0 ≤ x) : IsNearest x unit ⌊x / unit + 1 / 2⌋ := by
  have hq : 0 ≤ x / unit := div_nonneg hx hunit.le
  have hlow := Int.floor_le (x / unit + 1 / 2)
  have hhigh := Int.lt_floor_add_one (x / unit + 1 / 2)
  constructor
  · intro k
    rw [abs_sub_mul hunit, abs_sub_mul hunit, ← round_eq]
    exact mul_le_mul_of_nonneg_right (round_le _ k) hunit.le
  · intro k hk
    rw [abs_sub_mul hunit, abs_sub_mul hunit] at hk
    have hsame := mul_right_cancel₀ hunit.ne' hk
    generalize ⌊x / unit + 1 / 2⌋ = m at hlow hhigh hsame ⊢
    generalize x / unit = q at hq hlow hhigh hsame ⊢
    have hhalf : |q - m| ≤ 1 / 2 := abs_le.mpr ⟨by linarith, by linarith⟩
    have hm : 0 ≤ m := by
      have hneg : (-1 : ℚ) < m := by linarith
      have hneg' : -1 < m := by exact_mod_cast hneg
      omega
    rw [abs_of_nonneg hm]
    by_contra hgt
    rcases lt_abs.mp (not_le.mp hgt) with hright | hleft
    · have hk' : (m : ℚ) + 1 ≤ k := by exact_mod_cast hright
      have habs := neg_le_abs (q - k)
      linarith
    · have hk' : (m : ℚ) + 1 ≤ -k := by exact_mod_cast hleft
      have habs := le_abs_self (q - k)
      linarith

theorem neg (h : IsNearest x unit m) : IsNearest (-x) unit (-m) := by
  have hflip (k : Int) : |-x - k * unit| = |x - (-k : Int) * unit| := by
    rw [← abs_neg]
    congr 1
    push_cast
    ring
  constructor
  · intro k
    rw [hflip, hflip, neg_neg]
    exact h.nearest (-k)
  · intro k hk
    rw [hflip, hflip, neg_neg] at hk
    simpa using h.away (-k) hk

/-- There is one nearest multiple. -/
theorem unique (hunit : 0 < unit) (h : IsNearest x unit m) (h' : IsNearest x unit m') : m = m' := by
  have hsame : |x - m * unit| = |x - m' * unit| := le_antisymm (h.nearest m') (h'.nearest m)
  have habs : |m| = |m'| := le_antisymm (h'.away m hsame) (h.away m' hsame.symm)
  rcases abs_eq_abs.mp habs with heq | rfl
  · exact heq
  · -- zero is between two opposite multiples, and nearer than both
    have hzero : (m' : ℚ) * unit = 0 := by
      have hleast := h'.nearest 0
      push_cast at hsame hleast
      rcases abs_eq_abs.mp hsame with hx | hx
      · linarith
      · have hx0 : x = 0 := by linarith
        rw [hx0] at hleast
        simp only [zero_mul, sub_zero, abs_zero, zero_sub, abs_neg] at hleast
        exact abs_nonpos_iff.mp hleast
    have hm : m' = 0 := by exact_mod_cast (mul_eq_zero.mp hzero).resolve_right hunit.ne'
    rw [hm, neg_zero]

/-- A multiple is nearest to itself. -/
theorem self (hunit : 0 < unit) (m : Int) : IsNearest (m * unit) unit m := by
  constructor
  · intro k
    rw [sub_self, abs_zero]
    exact abs_nonneg _
  · intro k hk
    rw [sub_self, abs_zero, abs_eq_zero, ← sub_mul] at hk
    have hkm := (mul_eq_zero.mp hk).resolve_right hunit.ne'
    have heq : m = k := by exact_mod_cast sub_eq_zero.mp hkm
    rw [heq]

end IsNearest

/-! ## Rounding a decimal -/

namespace Decimal

/-- How many steps of a power of ten are nearest to a numeral without its sign. -/
def steps (n : Numeral) (e : Int) : Nat :=
  ⌊(n.coefficient : ℚ) * (10 : ℚ) ^ (n.exponent - e) + 1 / 2⌋₊

variable {n : Numeral} {e : Int} {c : Nat}

theorem digitCount_le_iff {k : Nat} (hk : 0 < k) : digitCount c ≤ k ↔ c < 10 ^ k :=
  Nat.length_toDigits_le_iff (by decide) hk

theorem floor_add_half (k : Nat) : ⌊(k : ℚ) + 1 / 2⌋₊ = k :=
  (Nat.floor_eq_iff (by positivity)).mpr ⟨by linarith, by linarith⟩

theorem digitCount_pos (c : Nat) : 0 < digitCount c :=
  List.length_pos_iff.mpr Nat.toDigits_ne_nil

/-- Zeros at the end are digits. -/
theorem precision_lt_iff (hc : 0 < c) (shift : Nat) :
    precision < digitCount c + shift ↔ 10 ^ precision ≤ c * 10 ^ shift := by
  have hpos := digitCount_pos c
  rcases Nat.lt_or_ge shift precision with hlt | hge
  · obtain ⟨k, hk⟩ := Nat.exists_eq_add_of_lt hlt
    have hcount := digitCount_le_iff (c := c) (Nat.succ_pos k)
    rw [hk, Nat.add_assoc, Nat.pow_add, Nat.mul_comm (10 ^ shift),
      Nat.mul_le_mul_right_iff (Nat.pow_pos (by decide)), ← Nat.not_lt, ← hcount]
    omega
  · have hle : 10 ^ precision ≤ 10 ^ shift := Nat.pow_le_pow_right (by decide) hge
    have hmul := Nat.mul_le_mul hc hle
    constructor
    · intro _
      omega
    · intro _
      omega

theorem steps_of_le (h : e ≤ n.exponent) :
    steps n e = n.coefficient * 10 ^ (n.exponent - e).toNat := by
  obtain ⟨shift, hshift⟩ := Int.eq_ofNat_of_zero_le (Int.sub_nonneg_of_le h)
  have hcast : (n.coefficient : ℚ) * (10 : ℚ) ^ (n.exponent - e) =
      ((n.coefficient * 10 ^ shift : Nat) : ℚ) := by
    rw [hshift, zpow_natCast]
    push_cast
    rfl
  rw [steps, hcast, floor_add_half, hshift, Int.toNat_natCast]

theorem steps_of_lt (h : n.exponent < e) :
    steps n e = roundHalfUp n.coefficient (10 ^ (e - n.exponent).toNat) := by
  obtain ⟨shift, hshift⟩ := Int.eq_ofNat_of_zero_le (Int.sub_nonneg_of_le h.le)
  have hneg : n.exponent - e = -(shift : Int) := by omega
  have hcast : (n.coefficient : ℚ) * (10 : ℚ) ^ (n.exponent - e) + 1 / 2 =
      ((2 * n.coefficient + 10 ^ shift : Nat) : ℚ) / ((2 * 10 ^ shift : Nat) : ℚ) := by
    rw [hneg, zpow_neg, zpow_natCast]
    push_cast
    field_simp
  rw [steps, hcast, Nat.floor_div_eq_div, hshift, Int.toNat_natCast]
  rfl

/-- A number of too few digits is nearest to zero. -/
theorem roundHalfUp_of_few {shift : Nat} (h : digitCount c < shift) :
    roundHalfUp c (10 ^ shift) = 0 := by
  have hdigits := digitCount_pos c
  obtain ⟨k, rfl⟩ := Nat.exists_eq_succ_of_ne_zero (Nat.ne_zero_of_lt h)
  have hsmall : c < 10 ^ k := (digitCount_le_iff (by omega)).mp (by omega)
  rw [roundHalfUp, Nat.pow_succ]
  exact Nat.div_eq_of_lt (by omega)

theorem roundTo?_eq (n : Numeral) (e : Int) :
    roundTo? n e = if 10 ^ precision ≤ steps n e then none else some (steps n e) := by
  unfold roundTo?
  rcases Nat.eq_zero_or_pos n.coefficient with hzero | hpos
  · have hsteps : steps n e = 0 := by
      rw [steps, hzero, Nat.cast_zero, zero_mul, ← Nat.cast_zero, floor_add_half]
    rw [if_pos hzero, hsteps]
    rfl
  rw [if_neg hpos.ne']
  rcases lt_or_ge n.exponent e with hlt | hle
  · rw [if_neg (Int.not_le.mpr hlt), steps_of_lt hlt]
    dsimp only
    by_cases hfew : digitCount n.coefficient < (e - n.exponent).toNat
    · rw [if_pos hfew, roundHalfUp_of_few hfew]
      rfl
    · have hcount (c : Nat) : precision < digitCount c ↔ 10 ^ precision ≤ c := by
        rw [← Nat.not_le, digitCount_le_iff (by decide), Nat.not_lt]
      rw [if_neg hfew]
      simp only [hcount]
  · rw [if_pos hle, steps_of_le hle]
    simp only [precision_lt_iff hpos]

end Decimal

/-- The number that a numeral writes. -/
def Numeral.value (n : Numeral) : ℚ :=
  let size := (n.coefficient : ℚ) * (10 : ℚ) ^ n.exponent
  if n.negative then -size else size

namespace Decimal

/-- How many steps of a power of ten are nearest to a numeral. -/
def signedSteps (n : Numeral) (e : Int) : Int :=
  if n.negative then -(steps n e : Int) else steps n e

theorem abs_signedSteps (n : Numeral) (e : Int) : |signedSteps n e| = steps n e := by
  unfold signedSteps
  split
  · rw [abs_neg, Nat.abs_cast]
  · rw [Nat.abs_cast]

theorem isNearest_signedSteps (n : Numeral) (e : Int) :
    IsNearest n.value ((10 : ℚ) ^ e) (signedSteps n e) := by
  have hunit : (0 : ℚ) < 10 ^ e := by positivity
  have hsize : (0 : ℚ) ≤ n.coefficient * (10 : ℚ) ^ n.exponent := by positivity
  have hnearest : IsNearest (n.coefficient * (10 : ℚ) ^ n.exponent) ((10 : ℚ) ^ e) (steps n e) := by
    have hfloor := IsNearest.floor hunit hsize
    rwa [mul_div_assoc, ← zpow_sub₀ (by norm_num), ← Int.natCast_floor_eq_floor (by positivity)]
      at hfloor
  unfold Numeral.value signedSteps
  split
  · exact hnearest.neg
  · exact hnearest

end Decimal

/-! ## Plain decimals -/

/-- A decimal as it is written without an exponent: digits with a sign before them or none, and with a point
among them or none. -/
structure PlainDecimal where
  /-- Whether a sign is a minus. -/
  sign : Option Bool
  whole : List Char
  /-- The digits after a point. -/
  fraction : Option (List Char)
  digits : ∀ c ∈ whole ++ fraction.getD [], c.isDigit = true
  nonempty : whole ++ fraction.getD [] ≠ []

namespace PlainDecimal

variable {l : PlainDecimal} {c : Char}

def places (l : PlainDecimal) : Nat := (l.fraction.getD []).length

def signChars (l : PlainDecimal) : List Char :=
  match l.sign with
  | none => []
  | some true => ['-']
  | some false => ['+']

def pointChars (l : PlainDecimal) : List Char :=
  match l.fraction with
  | none => []
  | some ds => '.' :: ds

def chars (l : PlainDecimal) : List Char := l.signChars ++ (l.whole ++ l.pointChars)

def text (l : PlainDecimal) : String := String.ofList l.chars

/-- The numeral of a decimal. -/
def numeral (l : PlainDecimal) : Numeral where
  negative := l.sign.getD false
  coefficient := Nat.ofDigitChars 10 (l.whole ++ l.fraction.getD []) 0
  exponent := -l.places

/-- The number of a decimal: that of its digits, over a power of ten for those after the point. -/
def value (l : PlainDecimal) : ℚ :=
  let size := (Nat.ofDigitChars 10 (l.whole ++ l.fraction.getD []) 0 : ℚ) / 10 ^ l.places
  if l.sign = some true then -size else size

theorem value_numeral (l : PlainDecimal) : l.numeral.value = l.value := by
  have hsize : (l.numeral.coefficient : ℚ) * (10 : ℚ) ^ l.numeral.exponent =
      (Nat.ofDigitChars 10 (l.whole ++ l.fraction.getD []) 0 : ℚ) / 10 ^ l.places := by
    rw [numeral, zpow_neg, zpow_natCast, div_eq_mul_inv]
  rw [Numeral.value, value, hsize]
  cases hsign : l.sign with
  | none => simp [numeral, hsign]
  | some minus => cases minus <;> simp [numeral, hsign]

theorem mem_pointChars (h : c ∈ l.pointChars) : c = '.' ∨ c ∈ l.fraction.getD [] := by
  unfold pointChars at h
  split at h
  · cases h
  · rename_i ds hds
    rw [hds]
    exact List.mem_cons.mp h

/-- No character of a decimal is below the plus sign or above the digits. -/
theorem bounds_of_mem (h : c ∈ l.chars) : 43 ≤ c.toNat ∧ c.toNat ≤ 57 := by
  have hdigit (h : c ∈ l.whole ++ l.fraction.getD []) : 43 ≤ c.toNat ∧ c.toNat ≤ 57 := by
    have hdigit := l.digits c h
    simp only [Char.isDigit, Bool.and_eq_true, decide_eq_true_eq] at hdigit
    have hlow : 48 ≤ c.toNat := hdigit.1
    have hhigh : c.toNat ≤ 57 := hdigit.2
    omega
  rcases List.mem_append.mp h with hsign | hbody
  · unfold signChars at hsign
    split at hsign
    · cases hsign
    all_goals
      cases List.mem_singleton.mp hsign
      decide
  · rcases List.mem_append.mp hbody with hwhole | hpoint
    · exact hdigit (List.mem_append_left _ hwhole)
    · rcases mem_pointChars hpoint with rfl | hfraction
      · decide
      · exact hdigit (List.mem_append_right _ hfraction)

theorem isBlank_of_mem (h : c ∈ l.chars) : Text.isBlank c = false := by
  have hbounds := bounds_of_mem h
  simp only [Text.isBlank, Text.isSpacing, Text.isInformationSeparator]
  grind

theorem trimChars_chars (l : PlainDecimal) : Text.trimChars l.chars = l.chars :=
  Text.trimChars_of_blankless fun _ => isBlank_of_mem

theorem underscore_not_mem (l : PlainDecimal) : '_' ∉ l.chars := by
  intro h
  exact absurd (bounds_of_mem h).2 (by decide)

/-! ### Reading -/

theorem takeSign_of_ne {cs : List Char} (h : ∀ c, cs.head? = some c → c ≠ '-' ∧ c ≠ '+') :
    Numeral.takeSign cs = (false, cs) := by
  unfold Numeral.takeSign
  split
  · exact absurd rfl (h _ rfl).1
  · exact absurd rfl (h _ rfl).2
  · rfl

theorem takeSign_chars (l : PlainDecimal) :
    Numeral.takeSign l.chars = (l.sign.getD false, l.whole ++ l.pointChars) := by
  have hbody : ∀ c, (l.whole ++ l.pointChars).head? = some c → c ≠ '-' ∧ c ≠ '+' := by
    intro c hc
    have hc : c = '.' ∨ c.isDigit = true := by
      rcases List.mem_append.mp (List.mem_of_head? hc) with hwhole | hpoint
      · exact .inr (l.digits c (List.mem_append_left _ hwhole))
      · exact (mem_pointChars hpoint).imp_right fun h => l.digits c (List.mem_append_right _ h)
    constructor <;>
    · rintro rfl
      exact absurd hc (by decide)
  rw [chars, signChars]
  cases l.sign with
  | none => exact takeSign_of_ne hbody
  | some minus => cases minus <;> rfl

/-- Digits are taken up to what is no digit. -/
theorem takeDigits_append {ds rest : List Char} (hds : ∀ c ∈ ds, c.isDigit = true)
    (hrest : ∀ c, rest.head? = some c → Text.decimalValue? c = none) :
    Numeral.takeDigits (ds ++ rest) = (ds.map fun c => c.toNat - 48, rest) := by
  induction ds with
  | nil =>
    cases rest with
    | nil => rfl
    | cons c rest =>
      rw [List.nil_append, Numeral.takeDigits, hrest c rfl]
      rfl
  | cons c ds ih =>
    obtain ⟨hc, hds⟩ := List.forall_mem_cons.mp hds
    rw [List.cons_append, Numeral.takeDigits, Mapping.decimalValue?_of_isDigit hc, ih hds]
    rfl

theorem takeDigits_all {ds : List Char} (hds : ∀ c ∈ ds, c.isDigit = true) :
    Numeral.takeDigits ds = (ds.map fun c => c.toNat - 48, []) := by
  have hall : Numeral.takeDigits (ds ++ []) = _ := takeDigits_append hds (by simp)
  rwa [List.append_nil] at hall

theorem read?_chars (l : PlainDecimal) : Numeral.read? l.chars = some l.numeral := by
  have hwhole : ∀ c ∈ l.whole, c.isDigit = true := fun c hc => l.digits c (List.mem_append_left _ hc)
  have hpoint : ∀ c, l.pointChars.head? = some c → Text.decimalValue? c = none := by
    unfold pointChars
    split
    · simp
    · rintro c ⟨⟩
      rfl
  have hcoefficient : Text.ofDigits ((l.whole ++ l.fraction.getD []).map fun c => c.toNat - 48) =
      Nat.ofDigitChars 10 (l.whole ++ l.fraction.getD []) 0 := Json.numberOf_eq _
  have hne := l.nonempty
  rw [Numeral.read?, takeSign_chars]
  dsimp only
  rw [takeDigits_append hwhole hpoint]
  cases hfraction : l.fraction with
  | none =>
    rw [hfraction, Option.getD_none, List.append_nil] at hcoefficient hne
    simp [pointChars, hfraction, hne, Numeral.takeExponent?, hcoefficient, numeral, places]
  | some ds =>
    have hds : ∀ c ∈ ds, c.isDigit = true :=
      fun c hc => l.digits c (List.mem_append_right _ (by rw [hfraction]; exact hc))
    rw [hfraction, Option.getD_some, List.map_append] at hcoefficient
    rw [hfraction, Option.getD_some] at hne
    simpa [pointChars, hfraction, takeDigits_all hds, Numeral.takeExponent?, hcoefficient, numeral,
      places] using hne

theorem decimal_read? (l : PlainDecimal) : Decimal.read? l.text =
    if Decimal.isWritable l.numeral then some (.finite l.numeral) else none := by
  have hfilter : l.chars.filter (· ≠ '_') = l.chars := by
    refine List.filter_eq_self.mpr fun c hc => decide_eq_true ?_
    rintro rfl
    exact l.underscore_not_mem hc
  rw [Decimal.read?, text, String.toList_ofList, trimChars_chars]
  simp only [hfilter, read?_chars]

theorem chars_ne_nil (l : PlainDecimal) : l.chars ≠ [] := by
  have hne := l.nonempty
  unfold chars pointChars
  cases hfraction : l.fraction with
  | none =>
    rw [hfraction, Option.getD_none, List.append_nil] at hne
    simp [hne]
  | some ds => simp

/-- The integer in decimal digits. -/
def ofInt (n : Int) : PlainDecimal where
  sign := if n < 0 then some true else none
  whole := decimalDigits n.natAbs
  fraction := none
  digits := by
    intro c hc
    rw [Option.getD_none, List.append_nil] at hc
    rw [← Json.isAsciiDigit_eq]
    exact Json.all_isAsciiDigit _ c hc
  nonempty := by
    rw [Option.getD_none, List.append_nil]
    exact decimalDigits_ne_nil _

theorem chars_ofInt (n : Int) : (ofInt n).chars = decimalText n := by
  unfold decimalText chars signChars pointChars ofInt
  by_cases h : n < 0 <;> simp [h]

theorem value_ofInt (n : Int) : (ofInt n).value = n := by
  have hsize : (Nat.ofDigitChars 10 (decimalDigits n.natAbs) 0) = n.natAbs := by
    rw [decimalDigits_eq, Nat.ofDigitChars_ten_toDigits]
  by_cases h : n < 0
  · have habs : (n.natAbs : ℚ) = -n := by
      rw [Nat.cast_natAbs, abs_of_neg h, Int.cast_neg]
    simp [value, ofInt, places, hsize, h, habs]
  · have habs : (n.natAbs : ℚ) = n := by
      rw [Nat.cast_natAbs, abs_of_nonneg (Int.not_lt.mp h)]
    simp [value, ofInt, places, hsize, h, habs]

end PlainDecimal

namespace Mapping

open Decimal

variable {v : Value} {param : Option String} {d : Int} {l : PlainDecimal}

theorem lastDigit_eq (hlow : -4000 ≤ d) (hhigh : d ≤ 0) : lastDigit d = .ok (-d) := by
  have hshift : ¬ greatestShift < d.natAbs := by unfold greatestShift; omega
  have hoverflow : ¬ greatestExponent < -d := by unfold greatestExponent; omega
  have hmax : max leastExponent (-d) = -d := by unfold leastExponent; omega
  rw [lastDigit, if_neg hshift, if_neg hoverflow, hmax]

theorem pow_le_of_digitCount {c : Nat} (hc : 0 < c) : 10 ^ (digitCount c - 1) ≤ c := by
  rcases Nat.eq_zero_or_pos (digitCount c - 1) with hone | hmore
  · rw [hone]
    exact hc
  · refine Nat.not_lt.mp fun hlt => ?_
    have hcount := (digitCount_le_iff hmore).mpr hlt
    omega

/-- A number of more digits than can be read is further from zero than a rounded one can be. -/
theorem precision_le_steps {n : Numeral} {e : Int} (hc : 0 < n.coefficient)
    (h : precision ≤ n.exponent + (digitCount n.coefficient - 1 : Nat) - e) :
    10 ^ precision ≤ steps n e := by
  have hleast : (10 : ℚ) ^ (digitCount n.coefficient - 1) ≤ n.coefficient := by
    exact_mod_cast pow_le_of_digitCount hc
  have hsize : (10 : ℚ) ^ precision ≤ n.coefficient * (10 : ℚ) ^ (n.exponent - e) :=
    calc (10 : ℚ) ^ precision = (10 : ℚ) ^ (precision : Int) := (zpow_natCast _ _).symm
      _ ≤ (10 : ℚ) ^ ((digitCount n.coefficient - 1 : Nat) + (n.exponent - e)) :=
        zpow_le_zpow_right₀ (by norm_num) (by omega)
      _ = (10 : ℚ) ^ (digitCount n.coefficient - 1) * (10 : ℚ) ^ (n.exponent - e) := by
        rw [zpow_add₀ (by norm_num), zpow_natCast]
      _ ≤ n.coefficient * (10 : ℚ) ^ (n.exponent - e) :=
        mul_le_mul_of_nonneg_right hleast (by positivity)
  refine Nat.le_floor ?_
  push_cast
  linarith

theorem nearest?_eq (htext : v.text? = some l.text) (hplaces : leastWritten ≤ -l.places)
    (hlow : -4000 ≤ d) (hhigh : d ≤ 0) :
    nearest? v d (-d) = if 10 ^ precision ≤ |signedSteps l.numeral (-d)| then none
      else some (.int (signedSteps l.numeral (-d) * 10 ^ (-d).toNat)) := by
  have hexponent : l.numeral.exponent = -l.places := rfl
  have habs : 10 ^ precision ≤ |signedSteps l.numeral (-d)| ↔
      10 ^ precision ≤ steps l.numeral (-d) := by
    rw [abs_signedSteps]
    exact_mod_cast Iff.rfl
  rw [nearest?, htext]
  simp only [Option.bind_eq_bind, Option.bind_some, l.decimal_read?, habs]
  by_cases hwritable : Decimal.isWritable l.numeral = true
  · rw [if_pos hwritable, Option.bind_some]
    simp only [roundTo?_eq, hhigh, if_true]
    split
    · rfl
    · rw [Option.bind_some, signedSteps]
      split <;> simp
  · rw [if_neg hwritable, Option.bind_none]
    have hlong : greatestWritten <
        l.numeral.exponent + (digitCount l.numeral.coefficient - 1 : Nat) := by
      simp only [Decimal.isWritable, Bool.and_eq_true, decide_eq_true_eq] at hwritable
      omega
    have hpos : 0 < l.numeral.coefficient := by
      refine Nat.pos_of_ne_zero fun hzero => ?_
      have hcount : digitCount 0 = 1 := by decide
      rw [hzero, hcount, hexponent, greatestWritten] at hlong
      omega
    rw [if_pos (precision_le_steps hpos (by
      unfold greatestWritten at hlong
      unfold precision
      omega))]

/-- What a rounding to a power of ten gives for the text of a decimal. -/
theorem transform_round (hbool : ∀ b, v ≠ .bool b) (htext : v.text? = some l.text)
    (hplaces : leastWritten ≤ -l.places) (hparam : places? param = some d) (hlow : -4000 ≤ d)
    (hhigh : d ≤ 0) (field : String) :
    transform .round v param field =
      if 10 ^ precision ≤ |signedSteps l.numeral (-d)| then
        .error (.mapping (.untransformable field "round"))
      else .ok (.int (signedSteps l.numeral (-d) * 10 ^ (-d).toNat)) := by
  have hround : roundValue v param =
      (nearest? v d (-d)).elim (.error .impossible) Except.ok := by
    unfold roundValue
    rw [hparam]
    cases v with
    | bool b => exact absurd rfl (hbool b)
    | _ =>
      dsimp only
      rw [lastDigit_eq hlow hhigh]
      generalize nearest? _ d = near
      dsimp only [bind, Except.bind]
      cases near (-d) <;> rfl
  rw [transform, hround, nearest?_eq htext hplaces hlow hhigh]
  by_cases hlong : 10 ^ precision ≤ |signedSteps l.numeral (-d)|
  · rw [if_pos hlong, if_pos hlong]
    rfl
  · rw [if_neg hlong, if_neg hlong]
    rfl

/-! ### Parameters -/

theorem joinDigits?_eq {cs : List Char} (h : '_' ∉ cs) (afterDigit : Bool) :
    Text.joinDigits? afterDigit cs = some cs := by
  induction cs generalizing afterDigit with
  | nil => rfl
  | cons c cs ih =>
    obtain ⟨hc, hcs⟩ := not_or.mp (List.mem_cons.not.mp h)
    unfold Text.joinDigits?
    rw [if_neg (Ne.symm hc), ih hcs]
    rfl

/-- A number of places is read from its decimal text. -/
theorem places?_displayed (hlow : -4000 ≤ d) (hhigh : d ≤ 0) :
    places? (some (Value.displayed (.int d))) = some d := by
  have htext : (Value.displayed (.int d)).toList = (PlainDecimal.ofInt d).chars := by
    rw [PlainDecimal.chars_ofInt]
    exact String.toList_ofList
  have hne : (Value.displayed (.int d)).isEmpty = false := by
    rw [Bool.eq_false_iff, ne_eq, String.isEmpty_iff]
    intro hempty
    rw [hempty] at htext
    exact (PlainDecimal.ofInt d).chars_ne_nil htext.symm
  have hsign : Numeral.takeSign (PlainDecimal.ofInt d).chars =
      (decide (d < 0), decimalDigits d.natAbs) := by
    rw [PlainDecimal.takeSign_chars]
    by_cases h : d < 0 <;> simp [PlainDecimal.ofInt, PlainDecimal.pointChars, h]
  have hshort : ¬ 4300 < (decimalDigits d.natAbs).length := by
    rw [decimalDigits_eq]
    have hcount : digitCount d.natAbs ≤ 4 := (digitCount_le_iff (by decide)).mpr (by omega)
    unfold digitCount at hcount
    omega
  rw [places?, hne, if_neg (by decide), Text.readInteger?, htext, PlainDecimal.trimChars_chars,
    Text.integerOf?, joinDigits?_eq (PlainDecimal.underscore_not_mem _)]
  have hnat : Text.natOfDigits? (decimalDigits d.natAbs) = some d.natAbs := by
    rw [decimalDigits_eq, natOfDigits?_toDigits]
  simp only [Option.bind_eq_bind, Option.bind_some, hsign, if_neg hshort, hnat, decide_eq_true_eq]
  refine congrArg some ?_
  split <;> omega

/-! ### Values -/

/-- A value denotes a number: an integer of at most 4000 digits, or the text of a plain decimal. The digits of
a text after its point are no more than any decimal can hold. -/
inductive Denotes : Value → ℚ → Prop where
  | int (n : Int) (short : n.natAbs < 10 ^ 4000) : Denotes (.int n) n
  | text (l : PlainDecimal) (places : leastWritten ≤ -l.places) : Denotes (.text l.text) l.value

/-- An integer of few digits has a text. -/
theorem text?_int {n : Int} {k : Nat} (h : n.natAbs < 10 ^ k) (hk : k ≤ 4300) :
    (Value.int n).text? = some (PlainDecimal.ofInt n).text := by
  have hshow : (Value.int n).isShowable = true := by
    rw [Value.isShowable, decide_eq_true_eq]
    have hpow (limit : Nat) (hk : k ≤ limit) : 10 ^ k ≤ 10 ^ limit :=
      Nat.pow_le_pow_right (by decide) hk
    exact Nat.lt_of_lt_of_le h (hpow 4300 hk)
  rw [Value.text?, if_pos hshow, PlainDecimal.text, PlainDecimal.chars_ofInt]
  rfl

theorem places_ofInt (n : Int) : leastWritten ≤ -(PlainDecimal.ofInt n).places := by
  have hplaces : (PlainDecimal.ofInt n).places = 0 := rfl
  rw [hplaces]
  decide

/-- A value that denotes a number is read as a plain decimal. -/
theorem Denotes.exists_plain {x : ℚ} (h : Denotes v x) : (∀ b, v ≠ .bool b) ∧
    ∃ l : PlainDecimal, v.text? = some l.text ∧ leastWritten ≤ -l.places ∧ l.value = x := by
  cases h with
  | int n short =>
    have htext := text?_int short (by decide)
    exact ⟨nofun, .ofInt n, htext, places_ofInt n, PlainDecimal.value_ofInt n⟩
  | text l places => exact ⟨nofun, l, rfl, places, rfl⟩

theorem natAbs_mul_pow_lt {m : Int} {j : Nat} (hm : |m| < 10 ^ j) (k : Nat) :
    (m * 10 ^ k).natAbs < 10 ^ (j + k) := by
  have hm' : m.natAbs < 10 ^ j := by
    rw [Int.abs_eq_natAbs] at hm
    exact_mod_cast hm
  rw [Int.natAbs_mul, Int.natAbs_pow, Nat.pow_add]
  exact Nat.mul_lt_mul_of_pos_right hm' (Nat.pow_pos (by decide))

/-- What was rounded is rounded to itself. -/
theorem transform_rounded {m : Int} (hm : |m| < 10 ^ precision) (hparam : places? param = some d)
    (hlow : -4000 ≤ d) (hhigh : d ≤ 0) (field : String) :
    transform .round (.int (m * 10 ^ (-d).toNat)) param field =
      .ok (.int (m * 10 ^ (-d).toNat)) := by
  have hunit : (0 : ℚ) < 10 ^ (-d) := by positivity
  have htext := text?_int (natAbs_mul_pow_lt hm (-d).toNat) (by unfold precision; omega)
  have hbool : ∀ b, Value.int (m * 10 ^ (-d).toNat) ≠ .bool b := nofun
  have hvalue : ((m * 10 ^ (-d).toNat : Int) : ℚ) = m * (10 : ℚ) ^ (-d) := by
    obtain ⟨k, hk⟩ := Int.eq_ofNat_of_zero_le (show 0 ≤ -d by omega)
    rw [hk, Int.toNat_natCast, zpow_natCast]
    push_cast
    rfl
  have hnearest := isNearest_signedSteps (PlainDecimal.ofInt (m * 10 ^ (-d).toNat)).numeral (-d)
  rw [PlainDecimal.value_numeral, PlainDecimal.value_ofInt, hvalue] at hnearest
  rw [transform_round hbool htext (places_ofInt _) hparam hlow hhigh,
    hnearest.unique hunit (.self hunit m), if_neg (Int.not_le.mpr hm)]

/-- Asked for no decimal places, or for up to 4000 places before the point, rounding gives the nearest multiple
of the power of ten, away from zero if there are two, and the same again when that is rounded. It refuses a
multiple of more than 28 digits. -/
theorem rounded_half_away {x : ℚ} (h : Denotes v x) (hlow : -4000 ≤ d) (hhigh : d ≤ 0) :
    places? (some (Value.displayed (.int d))) = some d ∧
    ∃ m : Int, (∀ k, IsNearest x ((10 : ℚ) ^ (-d)) k ↔ k = m) ∧
      ∀ param field, places? param = some d →
        (|m| < 10 ^ 28 → ∃ r, r = m * 10 ^ (-d).toNat ∧
          transform .round v param field = .ok (.int r) ∧
          transform .round (.int r) param field = .ok (.int r)) ∧
        (10 ^ 28 ≤ |m| → ∃ e, transform .round v param field = .error (.mapping e) ∧
          e.kind = "TypeCoercion" ∧ e.field = some field) := by
  have hunit : (0 : ℚ) < 10 ^ (-d) := by positivity
  obtain ⟨hbool, l, htext, hplaces, rfl⟩ := h.exists_plain
  have hnearest := isNearest_signedSteps l.numeral (-d)
  rw [l.value_numeral] at hnearest
  refine ⟨places?_displayed hlow hhigh, signedSteps l.numeral (-d), fun k => ⟨?_, ?_⟩, ?_⟩
  · intro hk
    exact hk.unique hunit hnearest
  · rintro rfl
    exact hnearest
  · intro param field hparam
    rw [transform_round hbool htext hplaces hparam hlow hhigh]
    generalize signedSteps l.numeral (-d) = m
    constructor
    · intro hm
      exact ⟨_, rfl, if_neg (Int.not_le.mpr hm), transform_rounded hm hparam hlow hhigh field⟩
    · intro hm
      exact ⟨_, if_pos hm, rfl, rfl⟩

-- A number just below a power of ten can be rounded to one digit too many.
example : transform .round (.text "9999999999999999999999999999.5") none "amount" =
    .error (untransformable .round "amount") := by
  rfl

def minusTwentyFive : PlainDecimal where
  sign := some true
  whole := ['2', '5']
  fraction := none
  digits := by simp
  nonempty := by simp

/-- Halfway between two tens the one further from zero is taken, below zero too. -/
theorem minusTwentyFive_rounded :
    transform .round (.text "-25") (some "-1") "amount" = .ok (.int (-30)) := by
  have hdenotes : Denotes (.text "-25") minusTwentyFive.value := .text minusTwentyFive (by decide)
  obtain ⟨hplaces, m, hm, hrounds⟩ := rounded_half_away hdenotes (show -4000 ≤ -1 by decide) (by decide)
  have hthree : m = -3 := by
    have hfloor : ⌊(25 : ℚ) / 10 ^ (-(-1 : Int)) + 1 / 2⌋ = 3 := by norm_num
    have hnearest : IsNearest (25 : ℚ) (10 ^ (-(-1 : Int))) _ :=
      .floor (by norm_num) (by norm_num)
    rw [hfloor] at hnearest
    refine ((hm _).mp ?_).symm
    have hvalue : minusTwentyFive.value = -25 := by
      have hdigits : Nat.ofDigitChars 10 ['2', '5'] 0 = 25 := by decide
      simp [PlainDecimal.value, minusTwentyFive, PlainDecimal.places, hdigits]
    rw [hvalue]
    exact hnearest.neg
  obtain ⟨r, rfl, hround, -⟩ := (hrounds (some "-1") "amount" hplaces).1 (by rw [hthree]; decide)
  rw [hround, hthree]
  rfl

end Mapping
end Conveyor
