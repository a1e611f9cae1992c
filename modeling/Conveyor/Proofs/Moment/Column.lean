import Conveyor.Log.Table
import Conveyor.Proofs.Calendar
import Conveyor.Proofs.Moment.Digits

/-!
# Moments in columns

From the year 1000 on, a column writes all parts of a moment at a fixed width. Its texts are then in
the order of the points in time, and are read back as the points in time.
-/

namespace Conveyor.Moment

/-- The point in time lies in the years that a column writes in four digits. -/
def FitsColumn (m : Moment) : Prop :=
  (Calendar.daysBeforeYear 1000 : Int) * dayMicros ≤ m.instant ∧ m.instant < wallLimit

/-- The offset of universal time from itself. -/
def universalZone : List Char := ['+', '0', '0', ':', '0', '0']

/-- The time of day in universal time. -/
def clockChars (m : Moment) : List Char :=
  lastDigits 2 m.hour ++ ':' :: (lastDigits 2 m.minute ++ ':' :: (lastDigits 2 m.second ++
    '.' :: (lastDigits 6 m.microsecond ++ universalZone)))

/-- A date, and a time of day after it. -/
def dateChars (d : Calendar.Date) (clock : List Char) : List Char :=
  lastDigits 4 d.year ++ '-' :: (lastDigits 2 d.month ++ '-' ::
    (lastDigits 2 d.day ++ 'T' :: clock))

/-- A moment of universal time at fixed widths. -/
def columnChars (m : Moment) : List Char := dateChars m.date m.clockChars

/-- A moment as a column holds it, which is possible for one that fits. -/
def column (m : Moment) : String := String.ofList m.toUniversal.columnChars

/-! ## The parts of a moment -/

section Parts

variable {m : Moment}

theorem timeOfDay_lt (m : Moment) : m.timeOfDay < 86400000000 := by
  unfold timeOfDay dayMicros
  omega

theorem hour_lt (m : Moment) : m.hour < 24 := by
  have h := m.timeOfDay_lt
  unfold hour
  omega

theorem minute_lt (m : Moment) : m.minute < 60 := Nat.mod_lt _ (by decide)

theorem second_lt (m : Moment) : m.second < 60 := Nat.mod_lt _ (by decide)

theorem microsecond_lt (m : Moment) : m.microsecond < 1000000 := Nat.mod_lt _ (by decide)

/-- The parts of a time of day make it up. -/
theorem clock_eq (m : Moment) :
    ((m.hour * 60 + m.minute) * 60 + m.second) * 1000000 + m.microsecond = m.timeOfDay := by
  unfold hour minute second microsecond
  omega

/-- The wall clock shows a day and a time of day. -/
theorem wall_eq (h : 0 ≤ m.wall) : (m.day : Int) * dayMicros + m.timeOfDay = m.wall := by
  unfold day timeOfDay dayMicros
  omega

theorem wall_toUniversal (m : Moment) : m.toUniversal.wall = m.instant := rfl

theorem inRange_iff {wall : Int} : inRange wall = true ↔ 0 ≤ wall ∧ wall < wallLimit := by
  simp [inRange]

theorem day_lt (h : m.wall < wallLimit) : m.day < Calendar.dayCount := by
  unfold day
  unfold wallLimit dayMicros Calendar.dayCount at *
  omega

theorem FitsColumn.day_lt (h : m.FitsColumn) : m.toUniversal.day < Calendar.dayCount :=
  Moment.day_lt h.2

theorem FitsColumn.nonneg (h : m.FitsColumn) : 0 ≤ m.toUniversal.wall :=
  Int.le_trans (by decide) h.1

theorem FitsColumn.valid (h : m.FitsColumn) : m.toUniversal.date.isValid = true :=
  (Calendar.Date.ofDay_spec h.day_lt).1

theorem FitsColumn.year (h : m.FitsColumn) :
    1000 ≤ m.toUniversal.date.year ∧ m.toUniversal.date.year < 10000 := by
  obtain ⟨⟨-, hlast⟩, -⟩ := Calendar.Date.isValid_iff.mp h.valid
  refine ⟨Calendar.Date.le_year_ofDay ?_, Nat.lt_succ_of_le hlast⟩
  have hwall := wall_eq h.nonneg
  have hfirst := h.1
  have htime := m.toUniversal.timeOfDay_lt
  rw [wall_toUniversal] at hwall
  unfold dayMicros at hwall hfirst
  show _ ≤ m.toUniversal.day
  omega

theorem FitsColumn.month_lt (h : m.FitsColumn) : m.toUniversal.date.month < 100 :=
  (Calendar.Date.widths h.valid).2.1

theorem FitsColumn.dayOfMonth_lt (h : m.FitsColumn) : m.toUniversal.date.day < 100 :=
  (Calendar.Date.widths h.valid).2.2

theorem length_clockChars (m : Moment) : m.clockChars.length = 21 := by
  simp [clockChars, universalZone, length_lastDigits]

theorem length_columnChars (m : Moment) : m.columnChars.length = 32 := by
  simp [columnChars, dateChars, length_lastDigits, length_clockChars]

end Parts

/-! ## Writing -/

/-- The parts of a date have fixed widths. -/
theorem writeDate_eq {d : Calendar.Date} (h : d.isValid = true) :
    writeDate d = lastDigits 4 d.year ++ '-' :: (lastDigits 2 d.month ++ '-' :: lastDigits 2 d.day) := by
  obtain ⟨hyear, hmonth, hday⟩ := Calendar.Date.widths h
  rw [writeDate, padded_eq (by decide) hyear, padded_eq (by decide) hmonth,
    padded_eq (by decide) hday, List.append_assoc, List.cons_append]

section Writing

variable {m : Moment} {room fuel : Nat} {expand : Char → Option (List Char)}

theorem fillWith_other {c : Char} (h : c ≠ '%') (rest : List Char) :
    m.fillWith room expand (fuel + 1) (c :: rest) = c :: m.fillWith room expand fuel rest := by
  rw [fillWith, if_pos h]

/-- Text without percent signs stays as it is. -/
theorem fillWith_plain {cs : List Char} (h : ∀ c ∈ cs, c ≠ '%') (hfuel : cs.length ≤ fuel) :
    m.fillWith room expand fuel cs = cs := by
  induction cs generalizing fuel with
  | nil => cases fuel <;> rfl
  | cons c cs ih =>
    cases fuel with
    | zero => cases hfuel
    | succ fuel =>
      obtain ⟨hc, hcs⟩ := List.forall_mem_cons.mp h
      rw [fillWith_other hc, ih hcs (Nat.le_of_succ_le_succ hfuel)]

/-- The letters for the parts of a moment that a column holds, but for the microseconds. -/
def columnLetters : List Char := ['Y', 'm', 'd', 'H', 'M', 'S']

theorem columnLetters_cases {c : Char} (h : c ∈ columnLetters) :
    c = 'Y' ∨ c = 'm' ∨ c = 'd' ∨ c = 'H' ∨ c = 'M' ∨ c = 'S' := by
  simpa [columnLetters] using h

theorem readDirective_letter {c : Char} (h : c ∈ columnLetters) (rest : List Char) :
    readDirective room (c :: rest) = ({}, c :: rest) := by
  have hplain : (c ≠ '_' ∧ c ≠ '-' ∧ c ≠ '0' ∧ c ≠ '^' ∧ c ≠ '#') ∧ isDigit c = false ∧
      c ≠ 'E' ∧ c ≠ 'O' := by
    rcases columnLetters_cases h with rfl | rfl | rfl | rfl | rfl | rfl <;> decide
  simp [readDirective, readFlags, hplain]

theorem abbreviation?_letter {c : Char} (h : c ∈ columnLetters) : abbreviation? c = none := by
  rcases columnLetters_cases h with rfl | rfl | rfl | rfl | rfl | rfl <;> rfl

/-- A part and the character after it. -/
theorem fillWith_part (hexpand : ∀ c ∈ columnLetters, expand c = none) {c sep : Char}
    (h : c ∈ columnLetters) (hsep : sep ≠ '%') {text : List Char}
    (hfield : m.field? {} c = some text) (rest : List Char) :
    m.fillWith room expand (fuel + 2) ('%' :: c :: sep :: rest) =
      text ++ sep :: m.fillWith room expand fuel rest := by
  have hpercent : c ≠ '%' := by
    rintro rfl
    exact absurd h (by decide)
  have htext : m.text? expand {} c = some text := by
    simp [text?, Directive.admits, hexpand c h, hfield]
  rw [fillWith, if_neg (by simp), readDirective_letter h]
  simp only [htext, Option.getD_some, fillWith_other hsep]

theorem field?_year (h : 1000 ≤ m.date.year ∧ m.date.year < 10000) :
    m.field? {} 'Y' = some (lastDigits 4 m.date.year) := by
  have hlength := List.length_pos_iff.mpr (decimalDigits_ne_nil m.date.year)
  have htext : m.field? {} 'Y' = some (List.replicate (1 - (decimalDigits m.date.year).length) '0'
      ++ decimalDigits m.date.year) := rfl
  rw [htext, Nat.sub_eq_zero_of_le hlength, ← decimalDigits_eq_lastDigits h.1 h.2]
  rfl

/-- The parts of a moment but the year are written in two digits. -/
theorem field?_parts (hmonth : m.date.month < 100) (hday : m.date.day < 100) :
    m.field? {} 'm' = some (lastDigits 2 m.date.month) ∧
      m.field? {} 'd' = some (lastDigits 2 m.date.day) ∧
      m.field? {} 'H' = some (lastDigits 2 m.hour) ∧
      m.field? {} 'M' = some (lastDigits 2 m.minute) ∧
      m.field? {} 'S' = some (lastDigits 2 m.second) := by
  have two {c : Char} {n : Nat} (hn : n < 100) (hfield : m.field? {} c = some (padded 2 n)) :
      m.field? {} c = some (lastDigits 2 n) :=
    hfield.trans (congrArg some (padded_eq (by decide) hn))
  refine ⟨two hmonth rfl, two hday rfl, two ?_ rfl, two ?_ rfl, two ?_ rfl⟩
  · exact Nat.lt_trans m.hour_lt (by decide)
  · exact Nat.lt_trans m.minute_lt (by decide)
  · exact Nat.lt_trans m.second_lt (by decide)

/-- The pattern for columns up to the microseconds. -/
def columnPattern : List Char :=
  ['%', 'Y', '-', '%', 'm', '-', '%', 'd', 'T', '%', 'H', ':', '%', 'M', ':', '%', 'S', '.']

/-- The parts of a moment that fill in the pattern, and what comes after them. -/
theorem fillWith_columnPattern (hyear : 1000 ≤ m.date.year ∧ m.date.year < 10000)
    (hmonth : m.date.month < 100) (hday : m.date.day < 100)
    (hexpand : ∀ c ∈ columnLetters, expand c = none) (fuel : Nat) (tail : List Char) :
    m.fillWith room expand (fuel + 12) (columnPattern ++ tail) =
      lastDigits 4 m.date.year ++ '-' :: (lastDigits 2 m.date.month ++ '-' ::
        (lastDigits 2 m.date.day ++ 'T' :: (lastDigits 2 m.hour ++ ':' :: (lastDigits 2 m.minute ++
          ':' :: (lastDigits 2 m.second ++ '.' :: m.fillWith room expand fuel tail))))) := by
  obtain ⟨hm, hd, hH, hM, hS⟩ := field?_parts hmonth hday
  simp only [columnPattern, List.cons_append, List.nil_append]
  rw [fillWith_part hexpand (by decide) (by decide) (field?_year hyear),
    fillWith_part hexpand (by decide) (by decide) hm,
    fillWith_part hexpand (by decide) (by decide) hd,
    fillWith_part hexpand (by decide) (by decide) hH,
    fillWith_part hexpand (by decide) (by decide) hM,
    fillWith_part hexpand (by decide) (by decide) hS]

theorem fillZone_columnPattern (m : Moment) :
    m.fillZone (columnPattern ++ '%' :: 'f' :: universalZone) =
      columnPattern ++ (lastDigits 6 m.microsecond ++ universalZone) := by
  simp [columnPattern, universalZone, fillZone, padded_eq, m.microsecond_lt]

theorem length_microseconds (m : Moment) :
    (lastDigits 6 m.microsecond ++ universalZone).length = 12 := by
  rw [List.length_append, length_lastDigits]
  rfl

theorem fillClock_columnPattern (hyear : 1000 ≤ m.date.year ∧ m.date.year < 10000)
    (hmonth : m.date.month < 100) (hday : m.date.day < 100) :
    m.fillClock (columnPattern ++ (lastDigits 6 m.microsecond ++ universalZone)) =
      m.columnChars := by
  have hlength : (columnPattern ++ (lastDigits 6 m.microsecond ++ universalZone)).length = 30 := by
    rw [List.length_append, length_microseconds]
    rfl
  have hroom : 32 < Moment.room (columnPattern ++
      (lastDigits 6 m.microsecond ++ universalZone)) := by
    have hpos := Nat.pos_of_isPowerOfTwo (Nat.isPowerOfTwo_nextPowerOfTwo (max 4 30))
    rw [Moment.room, hlength]
    omega
  have hplain : ∀ c ∈ lastDigits 6 m.microsecond ++ universalZone, c ≠ '%' := by
    rintro c hc rfl
    rcases List.mem_append.mp hc with hdigit | hzone
    · exact absurd (isDigit_of_mem_lastDigits hdigit) (by decide)
    · exact absurd hzone (by decide)
  have hfill (room : Nat) {expand : Char → Option (List Char)}
      (hexpand : ∀ c ∈ columnLetters, expand c = none) :
      m.fillWith room expand (30 + 1)
        (columnPattern ++ (lastDigits 6 m.microsecond ++ universalZone)) = m.columnChars := by
    rw [fillWith_columnPattern hyear hmonth hday hexpand,
      fillWith_plain hplain (by rw [length_microseconds]; decide)]
    rfl
  simp only [fillClock, hlength]
  rw [hfill _ fun c hc => by rw [abbreviation?_letter hc]; rfl, length_columnChars, if_pos hroom]

theorem format_columnPattern (hyear : 1000 ≤ m.date.year ∧ m.date.year < 10000)
    (hmonth : m.date.month < 100) (hday : m.date.day < 100) :
    m.format "%Y-%m-%dT%H:%M:%S.%f+00:00" = String.ofList m.columnChars := by
  have hpattern : ("%Y-%m-%dT%H:%M:%S.%f+00:00".toList.takeWhile fun c => c.toNat ≠ 0) =
      columnPattern ++ '%' :: 'f' :: universalZone := by rfl
  rw [format, hpattern, fillZone_columnPattern, fillClock_columnPattern hyear hmonth hday]

/-- A moment that fits a column is written to it. -/
theorem columnText_eq (h : m.FitsColumn) : m.columnText = .ok m.column := by
  have hinstant : m.assumeUniversal.toUniversal = m.toUniversal := rfl
  have hlast : m.toUniversal.wall < wallLimit := h.2
  have hrange : inRange m.toUniversal.wall = true := by simp [inRange, h.nonneg, hlast]
  rw [columnText, hinstant, if_pos hrange,
    format_columnPattern h.year h.month_lt h.dayOfMonth_lt]
  rfl

end Writing

/-! ## Order -/

section Order

variable {m m' : Moment}

theorem dateChars_lt {d d' : Calendar.Date} (hdates : d.Before d') (hyear : d'.year < 10000)
    (hmonth : d'.month < 100) (hday : d'.day < 100) (clock clock' : List Char) :
    dateChars d clock < dateChars d' clock' := by
  unfold dateChars
  rcases hdates with hyears | ⟨hyears, hmonths | ⟨hmonths, hdays⟩⟩
  · exact lastDigits_append_lt hyears hyear _ _
  · rw [hyears]
    refine append_cons_lt _ _ ?_
    exact lastDigits_append_lt hmonths hmonth _ _
  · rw [hyears, hmonths]
    refine append_cons_lt _ _ ?_
    refine append_cons_lt _ _ ?_
    exact lastDigits_append_lt hdays hday _ _

theorem clockChars_lt (h : m.timeOfDay < m'.timeOfDay) : m.clockChars < m'.clockChars := by
  have hparts : m.hour < m'.hour ∨ m.hour = m'.hour ∧ (m.minute < m'.minute ∨
      m.minute = m'.minute ∧ (m.second < m'.second ∨
        m.second = m'.second ∧ m.microsecond < m'.microsecond)) := by
    have hclock := m.clock_eq
    have hclock' := m'.clock_eq
    have hminute := m.minute_lt
    have hminute' := m'.minute_lt
    have hsecond := m.second_lt
    have hsecond' := m'.second_lt
    have hmicro := m.microsecond_lt
    have hmicro' := m'.microsecond_lt
    omega
  unfold clockChars
  rcases hparts with hhours | ⟨hhours, hminutes | ⟨hminutes, hseconds | ⟨hseconds, hmicros⟩⟩⟩
  · exact lastDigits_append_lt hhours (Nat.lt_trans m'.hour_lt (by decide)) _ _
  · rw [hhours]
    refine append_cons_lt _ _ ?_
    exact lastDigits_append_lt hminutes (Nat.lt_trans m'.minute_lt (by decide)) _ _
  · rw [hhours, hminutes]
    refine append_cons_lt _ _ ?_
    refine append_cons_lt _ _ ?_
    exact lastDigits_append_lt hseconds (Nat.lt_trans m'.second_lt (by decide)) _ _
  · rw [hhours, hminutes, hseconds]
    refine append_cons_lt _ _ ?_
    refine append_cons_lt _ _ ?_
    refine append_cons_lt _ _ ?_
    exact lastDigits_append_lt hmicros m'.microsecond_lt _ _

/-- A later point in time has a later text. -/
theorem column_lt (h : m.FitsColumn) (h' : m'.FitsColumn) (hlt : m.instant < m'.instant) :
    m.column < m'.column := by
  have hwall := wall_eq h.nonneg
  have hwall' := wall_eq h'.nonneg
  have htime := m.toUniversal.timeOfDay_lt
  have htime' := m'.toUniversal.timeOfDay_lt
  rw [wall_toUniversal] at hwall hwall'
  unfold dayMicros at hwall hwall'
  rw [column, column, String.lt_iff, String.toList_ofList, String.toList_ofList]
  by_cases hdays : m.toUniversal.day < m'.toUniversal.day
  · exact dateChars_lt (Calendar.Date.before_ofDay h.day_lt h'.day_lt hdays) h'.year.2 h'.month_lt
      h'.dayOfMonth_lt _ _
  · -- on one day the times of day decide
    have hday : m.toUniversal.day = m'.toUniversal.day := by omega
    have hdate : m.toUniversal.date = m'.toUniversal.date := congrArg Calendar.Date.ofDay hday
    unfold columnChars dateChars
    rw [hdate]
    refine append_cons_lt _ _ ?_
    refine append_cons_lt _ _ ?_
    refine append_cons_lt _ _ (clockChars_lt ?_)
    omega

/-- Columns are in the order of the points in time. -/
theorem column_le_iff (h : m.FitsColumn) (h' : m'.FitsColumn) :
    m.column ≤ m'.column ↔ m.instant ≤ m'.instant := by
  constructor
  · intro hle
    exact Int.not_lt.mp fun hlt => String.not_lt.mpr hle (column_lt h' h hlt)
  · intro hle
    rcases Int.lt_or_eq_of_le hle with hlt | heq
    · exact String.not_lt.mp (String.lt_asymm (column_lt h h' hlt))
    · have hsame : m.toUniversal = m'.toUniversal := by rw [toUniversal, heq, toUniversal]
      rw [column, hsame]
      exact String.le_refl _

end Order

/-! ## Reading -/

section Reading

variable {m : Moment}

/-- Dates and times have digits and the marks between them. -/
def IsIsoChar (c : Char) : Prop := isDigit c = true ∨ c ∈ ['-', 'T', ':', '.', '+']

theorem mem_columnChars {c : Char} (h : c ∈ m.columnChars) : IsIsoChar c := by
  have digits {width n : Nat} (h : c ∈ lastDigits width n) := isDigit_of_mem_lastDigits h
  have zone : ∀ c ∈ universalZone, IsIsoChar c := by
    simp [universalZone, IsIsoChar, isDigit]
  simp only [columnChars, dateChars, clockChars, List.mem_append, List.mem_cons] at h
  unfold IsIsoChar at zone ⊢
  grind

theorem IsIsoChar.utf8Size {c : Char} (h : IsIsoChar c) : c.utf8Size = 1 := by
  have hmarks : ∀ c ∈ ['-', 'T', ':', '.', '+'], c.toNat ≤ 127 := by simp
  refine Char.utf8Size_eq_one_iff.mpr ?_
  rcases h with hdigit | hmark
  · simp only [isDigit, Bool.and_eq_true, decide_eq_true_eq] at hdigit
    exact Nat.le_trans hdigit.2 (by decide)
  · exact hmarks c hmark

/-- Text of one byte for each character is what its bytes are. -/
theorem byteUnits_eq {cs : List Char} (h : ∀ c ∈ cs, c.utf8Size = 1) : byteUnits cs = cs := by
  induction cs with
  | nil => rfl
  | cons c cs ih =>
    obtain ⟨hc, hcs⟩ := List.forall_mem_cons.mp h
    have hrest : byteUnits (c :: cs) = List.replicate c.utf8Size c ++ byteUnits cs :=
      List.flatMap_cons
    rw [hrest, hc, ih hcs]
    rfl

/-- A date in its usual form ends at the tenth character. -/
theorem separatorPosition_eq {cs : List Char} {c : Char} (hlength : cs.length ≠ 7)
    (hdash : cs[4]? = some '-') (hnext : cs[5]? = some c) (hweek : c ≠ 'W') :
    separatorPosition cs = 10 := by
  simp only [separatorPosition, if_neg hlength, hdash, hnext, beq_self_eq_true, if_true]
  simp [hweek]

theorem separatorPosition_dateChars (d : Calendar.Date) (clock : List Char) :
    separatorPosition (dateChars d clock) = 10 := by
  refine separatorPosition_eq ?_ rfl rfl (digitChar_ne (Nat.mod_lt (d.month / 10) (by decide)) rfl)
  simp only [dateChars, List.length_append, List.length_cons, length_lastDigits]
  omega

/-- A date in its usual form is read back, whatever comes after it. -/
theorem readDate?_append {d : Calendar.Date} (hyear : d.year < 10000) (hmonth : d.month < 100)
    (hday : d.day < 100) (rest : List Char) : readDate? 10 (lastDigits 4 d.year ++ '-' ::
      (lastDigits 2 d.month ++ '-' :: (lastDigits 2 d.day ++ rest))) = some d := by
  have year (rest : List Char) :
      readDigits? 4 0 (lastDigits 4 d.year ++ rest) = some (d.year, rest) :=
    readDigits?_lastDigits hyear rest
  have month := readDigits?_two hmonth
  have day := readDigits?_two hday
  simp only [readDate?, year, month, day, List.head?_cons, beq_self_eq_true, if_true,
    List.drop_one, List.tail_cons, Option.bind_eq_bind, Option.bind_some]
  split
  case h_1 hweek =>
    -- no month starts with the letter for weeks
    exact absurd (List.cons.inj hweek).1 (digitChar_ne (Nat.mod_lt _ (by decide)) rfl)
  case h_2 => rfl

theorem readDate?_dateChars {d : Calendar.Date} (hyear : d.year < 10000) (hmonth : d.month < 100)
    (hday : d.day < 100) (clock : List Char) : readDate? 10 (dateChars d clock) = some d :=
  readDate?_append hyear hmonth hday ('T' :: clock)

theorem readClock?_clockChars (m : Moment) :
    readClock? 15 m.clockChars = some (⟨m.hour, m.minute, m.second, m.microsecond⟩, true) := by
  have hhour := readDigits?_two (Nat.lt_trans m.hour_lt (by decide))
  have hminute := readDigits?_two (Nat.lt_trans m.minute_lt (by decide))
  have hsecond := readDigits?_two (Nat.lt_trans m.second_lt (by decide))
  have hmicro (rest : List Char) :
      readDigits? 6 0 (lastDigits 6 m.microsecond ++ rest) = some (m.microsecond, rest) :=
    readDigits?_lastDigits m.microsecond_lt rest
  simp [readClock?, clockChars, readTimeParts?, readFraction?, hhour, hminute, hsecond, hmicro,
    universalZone, isDigit]

/-- An offset starts at its sign. -/
theorem offsetPosition_append {cs rest : List Char}
    (h : ∀ c ∈ cs, (c != '+' && c != '-' && c != 'Z') = true)
    (hrest : ∀ c, rest.head? = some c → (c != '+' && c != '-' && c != 'Z') = false) :
    offsetPosition (cs ++ rest) = cs.length := by
  rw [offsetPosition, List.takeWhile_append_of_pos h]
  cases rest with
  | nil => rw [List.takeWhile_nil, List.append_nil]
  | cons c rest =>
    rw [List.takeWhile_cons_of_neg (by rw [hrest c rfl]; exact Bool.false_ne_true), List.append_nil]

/-- No digit starts an offset. -/
theorem precedesOffset_of_isDigit {c : Char} (h : isDigit c = true) :
    (c != '+' && c != '-' && c != 'Z') = true := by
  simp only [Bool.and_eq_true, bne_iff_ne]
  refine ⟨⟨?_, ?_⟩, ?_⟩ <;>
  · rintro rfl
    cases h

theorem offsetPosition_clockChars (m : Moment) : offsetPosition m.clockChars = 15 := by
  have hsplit : m.clockChars = (lastDigits 2 m.hour ++ ':' :: (lastDigits 2 m.minute ++ ':' ::
      (lastDigits 2 m.second ++ '.' :: lastDigits 6 m.microsecond))) ++ universalZone := by
    simp [clockChars]
  rw [hsplit, offsetPosition_append]
  · simp [length_lastDigits]
  · intro c hc
    simp only [List.mem_append, List.mem_cons] at hc
    rcases hc with h | rfl | h | rfl | h | rfl | h
    case inr.inl | inr.inr.inr.inl | inr.inr.inr.inr.inr.inl => rfl
    all_goals exact precedesOffset_of_isDigit (isDigit_of_mem_lastDigits h)
  · intro c hc
    cases hc
    rfl

theorem readTime?_clockChars (m : Moment) : readTime? m.clockChars =
    some (⟨m.hour, m.minute, m.second, m.microsecond⟩, some 0) := by
  have hzone : readClock? 5 ['0', '0', ':', '0', '0'] = some ({}, false) := rfl
  have hdrop : m.clockChars.drop 15 = universalZone := rfl
  simp [readTime?, offsetPosition_clockChars, readClock?_clockChars, hdrop, universalZone, hzone,
    dayMicros]

/-- The parts of a moment make it up. -/
theorem of?_parts (h : m.date.isValid = true) (hday : m.date.toDay = m.day) (hwall : 0 ≤ m.wall)
    (offset : Option Int) :
    Moment.of? m.date m.hour m.minute m.second m.microsecond offset = some ⟨m.wall, offset⟩ := by
  rw [Moment.of?, if_pos ⟨h, m.hour_lt, m.minute_lt, m.second_lt⟩, hday, clock_eq]
  exact congrArg (fun wall => some (Moment.mk wall offset)) (wall_eq hwall)

/-- A column is read back as the point in time, in universal time. -/
theorem ofColumnText_column (h : m.FitsColumn) : ofColumnText m.column = .ok m.toUniversal := by
  have hread : readIso? m.toUniversal.columnChars = some m.toUniversal := by
    have hdate := readDate?_dateChars h.year.2 h.month_lt h.dayOfMonth_lt m.toUniversal.clockChars
    have hrest : (dateChars m.toUniversal.date m.toUniversal.clockChars).drop 10 =
        'T' :: m.toUniversal.clockChars := rfl
    have hmark : Char.utf8Size 'T' = 1 := by decide
    have hlength := m.toUniversal.length_columnChars
    rw [readIso?, byteUnits_eq fun _ hc => (mem_columnChars hc).utf8Size]
    rw [columnChars] at hlength ⊢
    simp [hlength, separatorPosition_dateChars, hdate, hrest, afterSeparator, hmark,
      readTime?_clockChars]
    exact of?_parts h.valid (Calendar.Date.ofDay_spec h.day_lt).2 h.nonneg _
  rw [ofColumnText, column, String.toList_ofList, hread]

end Reading

/-! ## Moments of ordinary years -/

/-- The moment has an offset of less than a day and lies in a year that a column writes in four
digits, and so do the days next to it. -/
structure IsOrdinary (m : Moment) : Prop where
  aware : ∃ o, m.offset = some o ∧ -dayMicros < o ∧ o < dayMicros
  year : 1001 ≤ m.toUniversal.date.year ∧ m.toUniversal.date.year ≤ 9998

section Ordinary

variable {m m' : Moment}

theorem IsOrdinary.instant_bounds (h : m.IsOrdinary) :
    (Calendar.daysBeforeYear 1001 : Int) * dayMicros ≤ m.instant ∧
      m.instant < (Calendar.daysBeforeYear 9999 : Int) * dayMicros := by
  obtain ⟨hfirst, hlast⟩ := h.year
  have hafter : Calendar.daysBeforeYear 1001 ≤ m.toUniversal.day :=
    Nat.le_trans (Calendar.daysBeforeYear_mono hfirst) (Calendar.Date.daysBeforeYear_ofDay_le _)
  have hbefore : m.toUniversal.day < Calendar.daysBeforeYear 9999 := by
    refine Nat.lt_of_not_le fun hle => ?_
    exact Nat.not_lt.mpr hlast (Calendar.Date.le_year_ofDay hle)
  have hday : m.toUniversal.day = (m.instant / dayMicros).toNat := rfl
  rw [hday, show Calendar.daysBeforeYear 1001 = 365242 from rfl] at hafter
  rw [hday, show Calendar.daysBeforeYear 9999 = 3651694 from rfl] at hbefore
  rw [show Calendar.daysBeforeYear 1001 = 365242 from rfl,
    show Calendar.daysBeforeYear 9999 = 3651694 from rfl]
  unfold dayMicros at hafter hbefore ⊢
  omega

theorem IsOrdinary.fits (h : m.IsOrdinary) : m.FitsColumn := by
  obtain ⟨hfirst, hlast⟩ := h.instant_bounds
  exact ⟨Int.le_trans (by decide) hfirst, Int.lt_trans hlast (by decide)⟩

theorem IsOrdinary.isSome_offset (h : m.IsOrdinary) : m.offset.isSome = true := by
  obtain ⟨o, ho, -⟩ := h.aware
  rw [ho]
  rfl

/-- Moments with offsets are in the order of their points in time. -/
theorem before_eq (h : m.offset.isSome = true) (h' : m'.offset.isSome = true) :
    m.before m' = .ok !decide (m'.instant ≤ m.instant) := by
  obtain ⟨o, ho⟩ := Option.isSome_iff_exists.mp h
  obtain ⟨o', ho'⟩ := Option.isSome_iff_exists.mp h'
  rw [before, ho, ho', ← decide_not]
  simp only [Int.not_le]

theorem notBefore_eq (h : m.offset.isSome = true) (h' : m'.offset.isSome = true) :
    (do pure (!(← m.before m')) : Except Fault Bool) = .ok (decide (m'.instant ≤ m.instant)) := by
  rw [before_eq h h']
  exact congrArg Except.ok (Bool.not_not _)

/-- A later moment is on the same clock. -/
theorem plus_eq_ok {micros : Int} (h : m.plus micros = .ok m') :
    m'.offset.isSome = m.offset.isSome ∧ m'.instant = m.instant + micros := by
  unfold plus plus? at h
  split at h
  case h_1 later hlater =>
    split at hlater
    · cases hlater
      cases h
      refine ⟨rfl, ?_⟩
      unfold instant
      dsimp only
      omega
    · cases hlater
  case h_2 => cases h

/-- Up to a day before an ordinary moment there are four digits for the year. -/
theorem IsOrdinary.fits_before (h : m.IsOrdinary) (hfirst : m.instant - dayMicros ≤ m'.instant)
    (hlast : m'.instant ≤ m.instant) : m'.FitsColumn := by
  obtain ⟨hafter, -⟩ := h.instant_bounds
  have hbounds : (Calendar.daysBeforeYear 1000 : Int) * dayMicros + dayMicros ≤
      (Calendar.daysBeforeYear 1001 : Int) * dayMicros := by decide
  exact ⟨by omega, Int.lt_of_le_of_lt hlast h.fits.2⟩

theorem IsOrdinary.startOfDay_fits (h : m.IsOrdinary) : m.startOfDay.FitsColumn := by
  have htime := m.timeOfDay_lt
  have hstart : m.startOfDay.instant = m.instant - m.timeOfDay := by
    simp only [startOfDay, instant]
    omega
  have hday : dayMicros = 86400000000 := rfl
  exact h.fits_before (by omega) (by omega)

/-- The moment a day before an ordinary one. -/
theorem IsOrdinary.exists_dayBefore (h : m.IsOrdinary) :
    ∃ m', m.plus (-dayMicros) = .ok m' ∧ m'.FitsColumn ∧ m'.offset.isSome = true ∧
      m'.instant = m.instant - dayMicros := by
  obtain ⟨hfirst, hlast⟩ := h.instant_bounds
  obtain ⟨o, ho, hlow, hhigh⟩ := h.aware
  have hinstant : m.instant = m.wall - o := by rw [instant, ho]; rfl
  have hrange : inRange (m.wall + -dayMicros) = true := by
    have hbounds : 2 * dayMicros ≤ (Calendar.daysBeforeYear 1001 : Int) * dayMicros := by decide
    have hbounds' : (Calendar.daysBeforeYear 9999 : Int) * dayMicros ≤ wallLimit := by decide
    simp only [inRange, Bool.and_eq_true, decide_eq_true_eq]
    omega
  have hbefore : instant { m with wall := m.wall + -dayMicros } = m.instant - dayMicros := by
    simp only [instant]
    omega
  have hday : 0 < dayMicros := by decide
  refine ⟨{ m with wall := m.wall + -dayMicros }, ?_, ?_, h.isSome_offset, hbefore⟩
  · rw [plus, plus?, if_pos hrange]
  · exact h.fits_before (Int.le_of_eq hbefore.symm) (by omega)

end Ordinary

end Conveyor.Moment
