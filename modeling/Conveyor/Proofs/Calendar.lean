import Mathlib.Tactic.SplitIfs
import Conveyor.Calendar

/-!
# Days and dates

Every day that the calendar has is the day of one valid date, and later days have later dates.
-/

namespace Conveyor.Calendar

/-! ## Years -/

theorem daysBeforeYear_eq (year : Nat) : daysBeforeYear year =
    (year - 1) * 365 + (year - 1) / 4 - (year - 1) / 100 + (year - 1) / 400 := rfl

/-- The days before a year that is split at the turns of its leap years. -/
theorem daysBeforeYear_split {a b c d : Nat} (hb : b ≤ 3) (hc : c ≤ 24) (hd : d ≤ 3) :
    daysBeforeYear (a * 400 + b * 100 + c * 4 + d + 1) =
      146097 * a + 36524 * b + 1461 * c + 365 * d := by
  rw [daysBeforeYear_eq]
  omega

theorem isLeap_split {a b c d : Nat} (hb : b ≤ 3) (hc : c ≤ 24) (hd : d ≤ 3) :
    isLeap (a * 400 + b * 100 + c * 4 + d + 1) = true ↔ d = 3 ∧ (c < 24 ∨ b = 3) := by
  simp only [isLeap, Bool.and_eq_true, Bool.or_eq_true, decide_eq_true_eq]
  omega

def yearLength (year : Nat) : Nat := if isLeap year then 366 else 365

theorem daysBeforeYear_succ {year : Nat} (h : 1 ≤ year) :
    daysBeforeYear (year + 1) = daysBeforeYear year + yearLength year := by
  obtain ⟨y, rfl⟩ := Nat.exists_eq_add_of_le' h
  have hturns : 400 ∣ y + 1 → 100 ∣ y + 1 ∧ 4 ∣ y + 1 := by omega
  have hturns' : 100 ∣ y + 1 → 4 ∣ y + 1 := by omega
  have hleap : isLeap (y + 1) = true ↔ 4 ∣ y + 1 ∧ (¬100 ∣ y + 1 ∨ 400 ∣ y + 1) := by
    simp [isLeap, Nat.dvd_iff_mod_eq_zero]
  have hquarters : y / 100 ≤ y / 4 := by omega
  have hcenturies : y / 400 ≤ y / 100 := by omega
  simp only [daysBeforeYear_eq, yearLength, hleap, Nat.add_sub_cancel, Nat.succ_div]
  split_ifs <;> omega

theorem daysBeforeYear_mono {year year' : Nat} (h : year ≤ year') :
    daysBeforeYear year ≤ daysBeforeYear year' := by
  induction h with
  | refl => exact Nat.le_refl _
  | @step year' _ ih =>
    refine Nat.le_trans ih ?_
    cases year' with
    | zero => exact Nat.le_refl _
    | succ year' =>
      rw [daysBeforeYear_succ (Nat.le_add_left 1 year')]
      exact Nat.le_add_right _ _

/-- A day is one of its year. -/
theorem yearOfDay_spec (day : Nat) :
    1 ≤ (yearOfDay day).1 ∧ daysBeforeYear (yearOfDay day).1 + (yearOfDay day).2 = day ∧
      (yearOfDay day).2 < yearLength (yearOfDay day).1 := by
  have hb : min 3 (day % 146097 / 36524) ≤ 3 := Nat.min_le_left _ _
  have hc : (day % 146097 - min 3 (day % 146097 / 36524) * 36524) / 1461 ≤ 24 := by omega
  have hd : min 3 ((day % 146097 - min 3 (day % 146097 / 36524) * 36524) % 1461 / 365) ≤ 3 :=
    Nat.min_le_left _ _
  have hleap := isLeap_split (a := day / 146097) hb hc hd
  refine ⟨Nat.le_add_left _ _, ?_, ?_⟩
  · show daysBeforeYear (day / 146097 * 400 + _ * 100 + _ * 4 + _ + 1) + (_ - _) = day
    rw [daysBeforeYear_split hb hc hd]
    omega
  · show _ - _ < yearLength (day / 146097 * 400 + _ * 100 + _ * 4 + _ + 1)
    unfold yearLength
    split
    case isTrue => omega
    case isFalse hnot =>
      have hshort := mt hleap.mpr hnot
      omega

theorem yearOfDay_le {day : Nat} (h : day < dayCount) : (yearOfDay day).1 ≤ maxYear := by
  show day / 146097 * 400 + min 3 (day % 146097 / 36524) * 100 +
    (day % 146097 - min 3 (day % 146097 / 36524) * 36524) / 1461 * 4 + min 3 _ + 1 ≤ 9999
  unfold dayCount at h
  omega

/-! ## Months -/

theorem daysInMonth_le (year month : Nat) : daysInMonth year month ≤ 31 := by
  unfold daysInMonth
  split_ifs <;> omega

theorem daysBeforeMonth_succ {year month : Nat} (h : 1 ≤ month) :
    daysBeforeMonth year (month + 1) = daysBeforeMonth year month + daysInMonth year month := by
  cases month with
  | zero => cases h
  | succ month => rfl

theorem daysBeforeMonth_mono {year month month' : Nat} (h : month ≤ month') :
    daysBeforeMonth year month ≤ daysBeforeMonth year month' := by
  induction h with
  | refl => exact Nat.le_refl _
  | @step month' _ ih =>
    refine Nat.le_trans ih ?_
    cases month' with
    | zero => exact Nat.le_refl _
    | succ month' => exact Nat.le_add_right _ _

theorem daysBeforeMonth_thirteen (year : Nat) : daysBeforeMonth year 13 = yearLength year := by
  unfold yearLength
  by_cases h : isLeap year = true
  · simp [daysBeforeMonth, daysInMonth, h]
  · simp [daysBeforeMonth, daysInMonth, h]

/-- The search for a month finds the one in which the day lies. -/
theorem monthOfDay_spec (year fuel : Nat) {month n : Nat} (hmonth : 1 ≤ month)
    (h : n < daysBeforeMonth year (month + fuel + 1) - daysBeforeMonth year month) :
    let found := monthOfDay year fuel month n
    month ≤ found.1 ∧ found.1 ≤ month + fuel ∧ 1 ≤ found.2 ∧
      found.2 ≤ daysInMonth year found.1 ∧
      daysBeforeMonth year found.1 + (found.2 - 1) = daysBeforeMonth year month + n := by
  induction fuel generalizing month n with
  | zero =>
    rw [Nat.add_zero, daysBeforeMonth_succ hmonth] at h
    exact ⟨Nat.le_refl _, Nat.le_refl _, Nat.le_add_left _ _,
      by simp only [monthOfDay]; omega, rfl⟩
  | succ fuel ih =>
    simp only [monthOfDay]
    split
    case isTrue hn => exact ⟨Nat.le_refl _, Nat.le_add_right _ _, Nat.le_add_left _ _, hn, rfl⟩
    case isFalse hn =>
      have hnext : daysBeforeMonth year (month + 1) =
          daysBeforeMonth year month + daysInMonth year month := daysBeforeMonth_succ hmonth
      rw [show month + (fuel + 1) + 1 = month + 1 + fuel + 1 by omega] at h
      obtain ⟨hfrom, hto, hfirst, hlast, hday⟩ := @ih (month + 1)
        (n - daysInMonth year month) (by omega) (by omega)
      exact ⟨by omega, by omega, hfirst, hlast, by omega⟩

/-! ## Dates -/

/-- One date is before another. -/
def Date.Before (d d' : Date) : Prop :=
  d.year < d'.year ∨ d.year = d'.year ∧
    (d.month < d'.month ∨ d.month = d'.month ∧ d.day < d'.day)

variable {d d' : Date} {n m : Nat}

theorem Date.Before.trichotomy (d d' : Date) : d.Before d' ∨ d = d' ∨ d'.Before d := by
  obtain ⟨year, month, day⟩ := d
  obtain ⟨year', month', day'⟩ := d'
  simp only [Date.Before, Date.mk.injEq]
  omega

theorem Date.isValid_iff : d.isValid = true ↔
    (1 ≤ d.year ∧ d.year ≤ maxYear) ∧ (1 ≤ d.month ∧ d.month ≤ 12) ∧
      1 ≤ d.day ∧ d.day ≤ daysInMonth d.year d.month := by
  simp only [Date.isValid, Bool.and_eq_true, decide_eq_true_eq, and_assoc]

/-- The year of a date has four digits, its month and its day have two. -/
theorem Date.widths (h : d.isValid = true) : d.year < 10000 ∧ d.month < 100 ∧ d.day < 100 := by
  obtain ⟨⟨-, hyear⟩, ⟨-, hmonth⟩, -, hday⟩ := Date.isValid_iff.mp h
  have hlength := daysInMonth_le d.year d.month
  unfold maxYear at hyear
  omega

/-- The first day of the month after a date is later. -/
theorem Date.toDay_lt (h : d.isValid = true) :
    d.toDay < daysBeforeYear d.year + daysBeforeMonth d.year (d.month + 1) := by
  obtain ⟨-, ⟨hmonth, -⟩, hday⟩ := Date.isValid_iff.mp h
  rw [daysBeforeMonth_succ hmonth, Date.toDay]
  omega

/-- A date is before the end of its year. -/
theorem Date.toDay_lt_next (h : d.isValid = true) : d.toDay < daysBeforeYear (d.year + 1) := by
  have hlt := Date.toDay_lt h
  obtain ⟨⟨hyear, -⟩, ⟨-, hmonth⟩, -⟩ := Date.isValid_iff.mp h
  have hend : daysBeforeMonth d.year (d.month + 1) ≤ yearLength d.year :=
    daysBeforeMonth_thirteen d.year ▸ daysBeforeMonth_mono (Nat.succ_le_succ hmonth)
  rw [daysBeforeYear_succ hyear]
  omega

/-- The day of a date is one that the calendar has. -/
theorem Date.toDay_lt_dayCount (h : d.isValid = true) : d.toDay < dayCount := by
  have hlast : d.year + 1 ≤ 10000 := Nat.succ_le_succ (Date.isValid_iff.mp h).1.2
  exact Nat.lt_of_lt_of_le (Date.toDay_lt_next h) (daysBeforeYear_mono hlast)

/-- A later date has a later day. -/
theorem Date.toDay_lt_toDay (h : d.isValid = true) (h' : d'.isValid = true)
    (before : d.Before d') : d.toDay < d'.toDay := by
  obtain ⟨-, -, hday', -⟩ := Date.isValid_iff.mp h'
  rcases before with hyears | ⟨hsame, hmonths | ⟨hmonths, hdays⟩⟩
  · calc d.toDay
        < daysBeforeYear (d.year + 1) := Date.toDay_lt_next h
      _ ≤ daysBeforeYear d'.year := daysBeforeYear_mono hyears
      _ ≤ d'.toDay := by rw [Date.toDay]; omega
  · calc d.toDay
        < daysBeforeYear d.year + daysBeforeMonth d.year (d.month + 1) := Date.toDay_lt h
      _ ≤ daysBeforeYear d.year + daysBeforeMonth d.year d'.month :=
        Nat.add_le_add_left (daysBeforeMonth_mono hmonths) _
      _ ≤ d'.toDay := by rw [Date.toDay, hsame]; omega
  · obtain ⟨-, -, hday, -⟩ := Date.isValid_iff.mp h
    unfold Date.toDay
    rw [← hsame, ← hmonths]
    omega

theorem Date.ofDay_eq (n : Nat) : Date.ofDay n =
    ⟨(yearOfDay n).1, (monthOfDay (yearOfDay n).1 11 1 (yearOfDay n).2).1,
      (monthOfDay (yearOfDay n).1 11 1 (yearOfDay n).2).2⟩ := rfl

/-- The date of a day is valid and has that day. -/
theorem Date.ofDay_spec (h : n < dayCount) :
    (Date.ofDay n).isValid = true ∧ (Date.ofDay n).toDay = n := by
  obtain ⟨hyear, hday, hlength⟩ := yearOfDay_spec n
  obtain ⟨hfirst, hlast, hmonth⟩ := monthOfDay_spec (yearOfDay n).1 11
    (n := (yearOfDay n).2) (Nat.le_refl 1)
    (by rw [daysBeforeMonth_thirteen]; exact hlength)
  obtain ⟨hone, hlen, hsum⟩ := hmonth
  rw [Date.ofDay_eq]
  refine ⟨Date.isValid_iff.mpr ⟨⟨hyear, yearOfDay_le h⟩, ⟨hfirst, hlast⟩, hone, hlen⟩, ?_⟩
  rw [Date.toDay, Nat.add_assoc, hsum, daysBeforeMonth, Nat.zero_add, hday]

/-- Later days have later dates. -/
theorem Date.before_ofDay (hn : n < dayCount) (hm : m < dayCount) (h : n < m) :
    (Date.ofDay n).Before (Date.ofDay m) := by
  obtain ⟨hvalid, hday⟩ := Date.ofDay_spec hn
  obtain ⟨hvalid', hday'⟩ := Date.ofDay_spec hm
  rcases Date.Before.trichotomy (Date.ofDay n) (Date.ofDay m) with hbefore | hsame | hafter
  · exact hbefore
  · have hdays := congrArg Date.toDay hsame
    omega
  · have hdays := Date.toDay_lt_toDay hvalid' hvalid hafter
    omega

/-- The days from one year on have dates of that year or later ones. -/
theorem Date.le_year_ofDay {year : Nat} (h : daysBeforeYear year ≤ n) :
    year ≤ (Date.ofDay n).year := by
  obtain ⟨hone, hday, hlength⟩ := yearOfDay_spec n
  rw [Date.ofDay_eq]
  refine Nat.le_of_not_lt fun hless => ?_
  have hyears : daysBeforeYear ((yearOfDay n).1 + 1) ≤ daysBeforeYear year :=
    daysBeforeYear_mono hless
  rw [daysBeforeYear_succ hone] at hyears
  omega

theorem Date.daysBeforeYear_ofDay_le (n : Nat) : daysBeforeYear (Date.ofDay n).year ≤ n := by
  obtain ⟨-, hday, -⟩ := yearOfDay_spec n
  rw [Date.ofDay_eq]
  exact Nat.le.intro hday

end Conveyor.Calendar
