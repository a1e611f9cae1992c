import Conveyor.Mapping.Transform
import Conveyor.Proofs.Binary64.Power
import Conveyor.Proofs.Mapping.Coercion

/-!
# Dates and times to the second

A moment can be written to the second with the names of its parts or with directives. From the year 1000
on both give one text, which is read back as what the wall clock shows, without the microseconds and
without an offset. Counts of seconds and of milliseconds of one point in time denote the same moment.
-/

namespace Conveyor

namespace Moment

variable {m : Moment}

/-! ## The wall clock to the second -/

/-- What the wall clock shows to the second, wherever the clock is. -/
def toSecond (m : Moment) : Moment := ⟨m.wall - m.microsecond, none⟩

/-- Date and time of day to the second, with a blank between them. -/
def secondChars (m : Moment) : List Char := writeDate m.date ++ ' ' :: timeChars m.toSecond.clock

theorem day_toSecond (m : Moment) : m.toSecond.day = m.day := by
  simp only [toSecond, day, microsecond, timeOfDay, dayMicros]
  omega

theorem timeOfDay_toSecond (m : Moment) : m.toSecond.timeOfDay = m.timeOfDay - m.microsecond := by
  simp only [toSecond, microsecond, timeOfDay, dayMicros]
  omega

theorem date_toSecond (m : Moment) : m.toSecond.date = m.date := by
  rw [date, day_toSecond, date]

/-- The microseconds are gone, and the other parts of the time are kept. -/
theorem clock_toSecond (m : Moment) : m.toSecond.clock = { m.clock with micro := 0 } := by
  have htime := timeOfDay_toSecond m
  simp only [clock, hour, minute, second, microsecond, TimeParts.mk.injEq] at htime ⊢
  omega

theorem isProper_toSecond (h : m.IsProper) : m.toSecond.IsProper := by
  obtain ⟨hfirst, hlast⟩ := inRange_iff.mp h.calendar
  have hmicro : (m.microsecond : Int) ≤ m.wall := by
    simp only [microsecond, timeOfDay, dayMicros]
    omega
  refine ⟨inRange_iff.mpr ⟨?_, ?_⟩, by rintro _ ⟨⟩⟩
  · exact Int.sub_nonneg_of_le hmicro
  · exact Int.lt_of_le_of_lt (Int.sub_le_self _ (Int.natCast_nonneg _)) hlast

/-! ## Writing -/

section Writing

variable {room fuel : Nat} {expand : Char → Option (List Char)}

/-- A part with which a pattern ends. -/
theorem fillWith_last (hexpand : ∀ c ∈ columnLetters, expand c = none) {c : Char}
    (h : c ∈ columnLetters) {text : List Char} (hfield : m.field? {} c = some text) :
    m.fillWith room expand (fuel + 1) ['%', c] = text := by
  have hpercent : c ≠ '%' := by
    rintro rfl
    exact absurd h (by decide)
  have htext : m.text? expand {} c = some text := by
    simp [text?, Directive.admits, hexpand c h, hfield]
  have hend : m.fillWith room expand fuel [] = [] := by cases fuel <;> rfl
  rw [fillWith, if_neg (by simp), readDirective_letter h]
  simp only [htext, Option.getD_some, hend, List.append_nil]

/-- The pattern for dates and times to the second. -/
def secondPattern : List Char :=
  ['%', 'Y', '-', '%', 'm', '-', '%', 'd', ' ', '%', 'H', ':', '%', 'M', ':', '%', 'S']

theorem fillWith_secondPattern (h : m.IsProper) (hyear : 1000 ≤ m.date.year)
    (hexpand : ∀ c ∈ columnLetters, expand c = none) :
    m.fillWith room expand (fuel + 11) secondPattern = m.secondChars := by
  have hvalid := h.date_spec.1
  obtain ⟨hlast, hmonth, hday⟩ := Calendar.Date.widths hvalid
  obtain ⟨hm, hd, hH, hM, hS⟩ := field?_parts hmonth hday
  rw [secondPattern, fillWith_part hexpand (by decide) (by decide) (field?_year ⟨hyear, hlast⟩),
    fillWith_part hexpand (by decide) (by decide) hm,
    fillWith_part hexpand (by decide) (by decide) hd,
    fillWith_part hexpand (by decide) (by decide) hH,
    fillWith_part hexpand (by decide) (by decide) hM, fillWith_last hexpand (by decide) hS,
    secondChars, writeDate_eq hvalid, clock_toSecond]
  simp [timeChars, clock]

theorem length_secondChars (h : m.IsProper) : m.secondChars.length = 19 := by
  rw [secondChars, writeDate_eq h.date_spec.1, clock_toSecond]
  simp [timeChars, clock, length_lastDigits]

theorem format_secondPattern (h : m.IsProper) (hyear : 1000 ≤ m.date.year) :
    m.format "%Y-%m-%d %H:%M:%S" = String.ofList m.secondChars := by
  have hpattern : ("%Y-%m-%d %H:%M:%S".toList.takeWhile fun c => c.toNat ≠ 0) = secondPattern := by
    rfl
  have hzone : m.fillZone secondPattern = secondPattern := by simp [secondPattern, fillZone]
  have hroom : 19 < Moment.room secondPattern := by
    have hpos := Nat.pos_of_isPowerOfTwo (Nat.isPowerOfTwo_nextPowerOfTwo (max 4 17))
    rw [Moment.room, show secondPattern.length = 17 from rfl]
    omega
  have hfill (room : Nat) {expand : Char → Option (List Char)}
      (hexpand : ∀ c ∈ columnLetters, expand c = none) :
      m.fillWith room expand (secondPattern.length + 1) secondPattern = m.secondChars := by
    show m.fillWith room expand (7 + 11) secondPattern = _
    exact fillWith_secondPattern h hyear hexpand
  rw [format, hpattern, hzone, fillClock]
  rw [hfill _ fun c hc => by rw [abbreviation?_letter hc]; rfl, length_secondChars h, if_pos hroom]

end Writing

/-! ## Reading -/

/-- Such a text starts and ends with digits. -/
theorem isDigit_of_ends (h : m.IsProper) {c : Char}
    (hc : m.secondChars.head? = some c ∨ m.secondChars.getLast? = some c) : isDigit c = true := by
  have hchars : m.secondChars = (lastDigits 4 m.date.year ++ '-' :: (lastDigits 2 m.date.month ++
      '-' :: (lastDigits 2 m.date.day ++ ' ' :: (lastDigits 2 m.hour ++
        ':' :: (lastDigits 2 m.minute ++ [':']))))) ++ lastDigits 2 m.second := by
    rw [secondChars, writeDate_eq h.date_spec.1, clock_toSecond]
    simp [timeChars, clock]
  rcases hc with hhead | hlast
  · have hyear : m.secondChars.head? = (lastDigits 4 m.date.year).head? := by
      rw [hchars]
      rfl
    rw [hyear] at hhead
    exact isDigit_of_mem_lastDigits (List.mem_of_mem_head? hhead)
  · rw [hchars, List.getLast?_append] at hlast
    have hsecond : (lastDigits 2 m.second).getLast? = some c := hlast
    exact isDigit_of_mem_lastDigits (List.mem_of_getLast? hsecond)

theorem utf8Size_secondChars (h : m.IsProper) : ∀ c ∈ m.secondChars, c.utf8Size = 1 := by
  intro c hc
  rcases List.mem_append.mp hc with hdate | htime
  · exact (isIsoChar_writeDate h.date_spec.1 c hdate).utf8Size
  · rcases List.mem_cons.mp htime with rfl | htime
    · decide
    · exact (isIsoChar_time (mem_timeChars htime)).utf8Size

/-- The text is read as what the wall clock shows. -/
theorem readIso?_secondChars (h : m.IsProper) : readIso? m.secondChars = some m.toSecond := by
  obtain ⟨hvalid, hday⟩ := h.date_spec
  obtain ⟨hyear, hmonth, hdayOfMonth⟩ := Calendar.Date.widths hvalid
  have hproper := isProper_toSecond h
  have hchars : m.secondChars = lastDigits 4 m.date.year ++ '-' :: (lastDigits 2 m.date.month ++
      '-' :: (lastDigits 2 m.date.day ++ ' ' :: timeChars m.toSecond.clock)) := by
    rw [secondChars, writeDate_eq hvalid]
    simp
  have hlength := length_secondChars h
  have hposition : separatorPosition m.secondChars = 10 := by
    refine separatorPosition_eq (c := (m.date.month / 10 % 10).digitChar) (by omega) ?_ ?_
      (digitChar_ne (Nat.mod_lt _ (by decide)) rfl)
    · rw [hchars]
      rfl
    · rw [hchars]
      rfl
  have hdate := readDate?_append hyear hmonth hdayOfMonth (' ' :: timeChars m.toSecond.clock)
  have hdrop : m.secondChars.drop 10 = ' ' :: timeChars m.toSecond.clock := by
    rw [hchars]
    rfl
  have hmark : afterSeparator (' ' :: timeChars m.toSecond.clock) = timeChars m.toSecond.clock := rfl
  have hparts := of?_parts hproper.date_spec.1 hproper.date_spec.2
    (inRange_iff.mp hproper.calendar).1 none
  rw [date_toSecond] at hparts
  rw [← hchars] at hdate
  have hlong : ¬m.secondChars.length < 7 := by omega
  rw [readIso?, byteUnits_eq (utf8Size_secondChars h)]
  simp only [if_neg hlong, hposition, hdate, hdrop, hmark, readTime?_timeChars (clock_proper _),
    Option.bind_eq_bind, Option.bind_some, List.isEmpty_cons, Bool.false_eq_true, if_false]
  exact hparts

/-! ## Counting -/

/-- A whole number of seconds has no microseconds. -/
theorem microsOfSeconds_whole {k : Nat} (hpos : 0 < k) (hk : k < 2 ^ 53) :
    microsOfSeconds? (Binary64.ofInt k) = some (k * secondMicros) := by
  obtain ⟨hfinite, -, hvalue⟩ := Binary64.ofInt_whole hpos hk
  have hwhole : (Binary64.ofInt k).truncate = k := Binary64.truncate_of_value (by exact_mod_cast hvalue)
  obtain ⟨z, hrest⟩ := Binary64.sub_self hfinite
  have hnone : ∀ z, ((⟨z, 0, 0⟩ : Binary64).mul (Binary64.ofInt secondMicros)).roundToInt = 0 := by
    decide +kernel
  rw [microsOfSeconds?, if_pos hfinite, microsOfSeconds]
  simp only [hwhole, hrest, hnone, Int.add_zero]

end Moment

namespace Mapping

variable {v : Value} {m : Moment}

/-- Text without blanks at its ends is read as it stands, unless it ends in the mark of universal
time. -/
theorem moment?_bare {cs : List Char} (bare : Text.IsBare cs) (hlast : cs.getLast? ≠ some 'Z') :
    moment? (.text (String.ofList cs)) = Moment.readIso? cs := by
  have htrim : Text.trimChars cs = cs := by
    have hpadded := Text.trimChars_padded (List.forall_mem_nil _) bare (List.forall_mem_nil _)
    rwa [List.nil_append, List.append_nil] at hpadded
  simp only [moment?, Value.text?, Value.isShowable, if_true, Value.displayed, Option.bind_eq_bind,
    Option.bind_some, String.toList_ofList, htrim]

theorem moment?_secondChars (h : m.IsProper) :
    moment? (.text (String.ofList m.secondChars)) = some m.toSecond := by
  rw [moment?_bare ?bare ?last, Moment.readIso?_secondChars h]
  case bare => exact fun c hc => isBlank_of_isIsoChar (.inl (Moment.isDigit_of_ends h hc))
  case last =>
    intro hz
    have hdigit := Moment.isDigit_of_ends h (.inr hz)
    cases hdigit

/-- The names of the parts stand for the directives. -/
theorem datePattern_names :
    datePattern (some "YYYY-MM-DD HH:mm:ss") = datePattern (some "%Y-%m-%d %H:%M:%S") := by
  decide +kernel

/-- Counted in milliseconds a point in time is the same moment as counted in seconds. -/
theorem moment?_milliseconds {s : Int} (hlow : 1000000000 < s) (hhigh : s ≤ 1000000000000) :
    moment? (.int (1000 * s)) = moment? (.int s) := by
  obtain ⟨k, rfl⟩ := Int.eq_ofNat_of_zero_le (by omega : 0 ≤ s)
  have hseconds : ¬secondsLimit < (k : Int) := Int.not_lt.mpr hhigh
  have hmillis : secondsLimit < 1000 * (k : Int) := by
    unfold secondsLimit
    omega
  have hnat : (1000 * (k : Int)).toNat = 1000 * k := by omega
  have hcounted : countedMicros? (.int (1000 * k)) = countedMicros? (.int k) := by
    rw [countedMicros?, countedMicros?, if_pos hmillis, if_neg hseconds, hnat,
      Binary64.ofRatio_whole (by omega) (by omega) (by decide),
      Moment.microsOfSeconds_whole (by omega) (by omega)]
  rw [moment?, moment?, hcounted]

/-- A value that denotes a moment of the year 1000 or later is written to the second, alike with the
names of the parts and with directives. The text is read back as the date and the time of day on the
wall clock, without microseconds and without an offset. Counted in seconds and in milliseconds a
point in time is the same moment. -/
theorem written_to_second :
    (∀ v m field, moment? v = some m → 1000 ≤ m.date.year →
      ∃ text later, transform .dateFormat v (some "YYYY-MM-DD HH:mm:ss") field = .ok (.text text) ∧
        transform .dateFormat v (some "%Y-%m-%d %H:%M:%S") field = .ok (.text text) ∧
        moment? (.text text) = some later ∧ later.date = m.date ∧ later.hour = m.hour ∧
        later.minute = m.minute ∧ later.second = m.second ∧ later.microsecond = 0 ∧
        later.offset = none) ∧
    ∀ s : Int, 1000000000 < s → s ≤ 1000000000000 →
      moment? (.int (1000 * s)) = moment? (.int s) := by
  refine ⟨fun v m field h hyear => ?_, fun s => moment?_milliseconds⟩
  have hproper := isProper_of_moment? h
  have hdirectives : transform .dateFormat v (some "%Y-%m-%d %H:%M:%S") field =
      .ok (.text (String.ofList m.secondChars)) := by
    have hpattern : datePattern (some "%Y-%m-%d %H:%M:%S") = "%Y-%m-%d %H:%M:%S" := by
      decide +kernel
    rw [transform, h, hpattern, ← Moment.format_secondPattern hproper hyear]
  have hnames : transform .dateFormat v (some "YYYY-MM-DD HH:mm:ss") field =
      .ok (.text (String.ofList m.secondChars)) := by
    rw [← hdirectives, transform, transform, datePattern_names]
  have hclock := m.clock_toSecond
  simp only [Moment.clock, Moment.TimeParts.mk.injEq] at hclock
  obtain ⟨hhour, hminute, hsecond, hmicro⟩ := hclock
  exact ⟨_, m.toSecond, hnames, hdirectives, moment?_secondChars hproper, m.date_toSecond, hhour,
    hminute, hsecond, hmicro, rfl⟩

/-- The last second of a leap day, on a clock ahead of universal time. -/
theorem leapDay_to_second :
    moment? (.text "2024-02-29T23:59:59.75+05:30") =
        some ⟨63844847999750000, some 19800000000⟩ ∧
      (∃ text later, transform .dateFormat (.text "2024-02-29T23:59:59.75+05:30")
          (some "YYYY-MM-DD HH:mm:ss") "at" = .ok (.text text) ∧
        transform .dateFormat (.text "2024-02-29T23:59:59.75+05:30")
          (some "%Y-%m-%d %H:%M:%S") "at" = .ok (.text text) ∧
        moment? (.text text) = some later ∧ later.date = ⟨2024, 2, 29⟩ ∧ later.hour = 23 ∧
        later.minute = 59 ∧ later.second = 59 ∧ later.microsecond = 0 ∧ later.offset = none) ∧
      moment? (.int 1709231399) = some ⟨63844828199000000, some 0⟩ ∧
      moment? (.int 1709231399000) = some ⟨63844828199000000, some 0⟩ := by
  obtain ⟨written, counted⟩ := written_to_second
  have denoted : moment? (.text "2024-02-29T23:59:59.75+05:30") =
      some ⟨63844847999750000, some 19800000000⟩ := by decide +kernel
  have seconds : moment? (.int 1709231399) = some ⟨63844828199000000, some 0⟩ := by decide +kernel
  have millis := counted 1709231399 (by decide) (by decide)
  exact ⟨denoted, written _ _ "at" denoted (by decide +kernel), seconds, millis.trans seconds⟩

end Mapping
end Conveyor
