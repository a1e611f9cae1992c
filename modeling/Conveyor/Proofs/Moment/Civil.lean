import Conveyor.Proofs.Moment.Column
import Conveyor.Queue

/-!
# Moments in records

A record carries its moment as text. It is read back as the same moment if the calendar has it and the
offset of its clock is one of whole minutes.
-/

namespace Conveyor

open Schema

namespace Moment

/-- The calendar has the moment, and its clock is less than a day and a number of whole minutes off
universal time, if it is known. -/
structure IsCivil (m : Moment) : Prop where
  calendar : inRange m.wall = true
  zone : ∀ o, m.offset = some o → ∃ minutes : Int, o = minutes * 60000000 ∧ minutes.natAbs < 1440

/-- The text does not go on as a time of day could. -/
def EndsClock (rest : List Char) : Prop :=
  ∀ c, rest.head? = some c → isDigit c = false ∧ c ≠ '.' ∧ c ≠ ','

variable {m : Moment} {rest : List Char}

/-! ## The calendar and the clock -/

theorem IsCivil.day_lt (h : m.IsCivil) : m.day < Calendar.dayCount :=
  Moment.day_lt (inRange_iff.mp h.calendar).2

theorem IsCivil.nonneg (h : m.IsCivil) : 0 ≤ m.wall := (inRange_iff.mp h.calendar).1

/-- A date is read back and the text goes on after it. -/
theorem dateOf?_writeDate {d : Calendar.Date} (h : d.isValid = true) (rest : List Char) :
    dateOf? (writeDate d ++ rest) = some (d, rest) := by
  obtain ⟨hyear, hmonth, hday⟩ := Calendar.Date.widths h
  have year (rest : List Char) :
      readDigits? 4 0 (lastDigits 4 d.year ++ rest) = some (d.year, rest) :=
    readDigits?_lastDigits hyear rest
  have month := readDigits?_two hmonth
  have day := readDigits?_two hday
  have hwritten : writeDate d ++ rest = lastDigits 4 d.year ++ '-' :: (lastDigits 2 d.month ++
      '-' :: (lastDigits 2 d.day ++ rest)) := by
    rw [writeDate_eq h, List.append_assoc, List.cons_append, List.append_assoc, List.cons_append]
  simp [hwritten, dateOf?, twoDigits?, year, month, day, h]

/-- Seconds and microseconds are read back up to where the time of day ends. -/
theorem secondsOf?_written (m : Moment) (hrest : EndsClock rest) :
    secondsOf? (':' :: (lastDigits 2 m.second ++ ((if m.microsecond = 0 then [] else
      '.' :: padded 6 m.microsecond) ++ rest))) = some (m.second, m.microsecond, rest) := by
  have second := readDigits?_two (Nat.lt_trans m.second_lt (by decide))
  by_cases hmicro : m.microsecond = 0
  · simp only [hmicro, if_true, List.nil_append, secondsOf?, twoDigits?, second,
      Option.bind_eq_bind, Option.bind_some]
    cases rest with
    | nil => rfl
    | cons c rest =>
      obtain ⟨-, hpoint, hcomma⟩ := hrest c rfl
      simp [hpoint, hcomma]
  · have hdigits : ∀ c ∈ lastDigits 6 m.microsecond, isDigit c = true :=
      fun _ => isDigit_of_mem_lastDigits
    have hstop : rest.takeWhile isDigit = [] := by
      cases rest with
      | nil => rfl
      | cons c rest => simp [(hrest c rfl).1]
    have htake : (lastDigits 6 m.microsecond ++ rest).takeWhile isDigit =
        lastDigits 6 m.microsecond := by
      rw [List.takeWhile_append_of_pos hdigits, hstop, List.append_nil]
    have micro : readDigits? 6 0 (lastDigits 6 m.microsecond ++ []) = some (m.microsecond, []) :=
      readDigits?_lastDigits m.microsecond_lt []
    rw [List.append_nil] at micro
    have hdrop : (lastDigits 6 m.microsecond ++ rest).drop 6 = rest :=
      List.drop_left' (length_lastDigits 6 _)
    rw [if_neg hmicro, padded_eq (by decide) m.microsecond_lt]
    have hempty : (lastDigits 6 m.microsecond).isEmpty = false := rfl
    simp only [List.cons_append, secondsOf?, twoDigits?, second, Option.bind_eq_bind,
      Option.bind_some, true_or, if_true, htake, length_lastDigits, Nat.min_self, micro, hempty,
      hdrop]
    simp

/-! ## Offsets -/

theorem zoneText_minutes {n : Int} : zoneText (n * 60000000) =
    if n = 0 then ['Z']
    else (if n < 0 then '-' else '+') :: (padded 2 (n.natAbs / 60) ++ ':' ::
      padded 2 (n.natAbs % 60)) := by
  have hseconds : n * 60000000 / secondMicros = n * 60 := by
    unfold secondMicros
    omega
  have hminutes : (n * 60).natAbs / 60 = n.natAbs := by
    rw [Int.natAbs_mul]
    exact Nat.mul_div_cancel _ (by decide)
  have hzero : n * 60 = 0 ↔ n = 0 := by omega
  have hnegative : n * 60 < 0 ↔ n < 0 := by omega
  simp only [zoneText, hseconds, hminutes, hzero, hnegative, List.cons_append]

theorem endsClock_zoneText (n : Int) : EndsClock (zoneText (n * 60000000)) := by
  intro c hc
  rw [zoneText_minutes] at hc
  by_cases hzero : n = 0
  · rw [if_pos hzero] at hc
    cases hc
    decide
  · rw [if_neg hzero] at hc
    by_cases hnegative : n < 0
    · rw [if_pos hnegative] at hc
      cases hc
      decide
    · rw [if_neg hnegative] at hc
      cases hc
      decide

theorem offsetOf?_sign {c : Char} (hc : c = '+' ∨ c = '-') {minutes : Nat}
    (h : minutes < 1440) :
    offsetOf? (c :: (padded 2 (minutes / 60) ++ ':' :: padded 2 (minutes % 60))) =
      some (some (if c = '+' then (minutes : Int) * 60000000 else -((minutes : Int) * 60000000))) := by
  have hour := readDigits?_two (show minutes / 60 < 100 by omega)
  have minute : readDigits? 2 0 (lastDigits 2 (minutes % 60) ++ []) = some (minutes % 60, []) :=
    readDigits?_two (by omega) []
  rw [List.append_nil] at minute
  have hparts : minutes / 60 * 60 + minutes % 60 = minutes := Nat.div_add_mod' minutes 60
  have hday : ¬ dayMicros ≤ (minutes : Int) * 60000000 := by
    unfold dayMicros
    omega
  have hminute : ¬ 60 ≤ minutes % 60 := by omega
  have hzone : ¬ (c = 'Z' ∨ c = 'z') := by
    rcases hc with rfl | rfl <;> decide
  have hsign : c = '+' ∨ c = '-' ∨ c.toNat = 0x2212 := by
    rcases hc with rfl | rfl <;> simp
  rw [padded_eq (by decide) (by omega), padded_eq (by decide) (by omega), offsetOf?, if_neg hzone,
    if_pos hsign]
  simp only [twoDigits?, hour, minute, hparts, Option.bind_eq_bind, Option.bind_some,
    List.isEmpty_nil, Bool.not_true, Bool.false_eq_true, hminute, hday, or_self, if_false]

/-- An offset of whole minutes is read back. -/
theorem offsetOf?_zoneText {n : Int} (h : n.natAbs < 1440) :
    offsetOf? (zoneText (n * 60000000)) = some (some (n * 60000000)) := by
  rw [zoneText_minutes]
  by_cases hzero : n = 0
  · subst hzero
    rfl
  · rw [if_neg hzero]
    by_cases hnegative : n < 0
    · have hvalue : -((n.natAbs : Int) * 60000000) = n * 60000000 := by omega
      rw [if_pos hnegative, offsetOf?_sign (.inr rfl) h, if_neg (by decide), hvalue]
    · have hvalue : (n.natAbs : Int) * 60000000 = n * 60000000 := by omega
      rw [if_neg hnegative, offsetOf?_sign (.inl rfl) h, if_pos rfl, hvalue]

/-! ## Whole moments -/

/-- The text of an offset, if there is one. -/
def zoneChars (m : Moment) : List Char :=
  match m.offset with
  | some offset => zoneText offset
  | none => []

theorem IsCivil.zoneChars (h : m.IsCivil) :
    EndsClock m.zoneChars ∧ offsetOf? m.zoneChars = some m.offset := by
  unfold Moment.zoneChars
  cases ho : m.offset with
  | none =>
    refine ⟨?_, rfl⟩
    intro c hc
    cases hc
  | some o =>
    obtain ⟨n, rfl, hn⟩ := h.zone o ho
    exact ⟨endsClock_zoneText n, offsetOf?_zoneText hn⟩

theorem momentOfIso?_written (h : m.IsCivil) :
    momentOfIso? (writeDate m.date ++ 'T' :: (m.writeTime ++ m.zoneChars)) = some m := by
  obtain ⟨hvalid, hday⟩ : m.date.isValid = true ∧ m.date.toDay = m.day :=
    Calendar.Date.ofDay_spec h.day_lt
  obtain ⟨hends, hoffset⟩ := h.zoneChars
  have hour := readDigits?_two (Nat.lt_trans m.hour_lt (by decide))
  have minute := readDigits?_two (Nat.lt_trans m.minute_lt (by decide))
  have seconds := secondsOf?_written m hends
  have hwritten : m.writeTime ++ m.zoneChars = lastDigits 2 m.hour ++ ':' ::
      (lastDigits 2 m.minute ++ ':' :: (lastDigits 2 m.second ++ ((if m.microsecond = 0 then [] else
        '.' :: padded 6 m.microsecond) ++ m.zoneChars))) := by
    rw [writeTime, padded_eq (by decide) (Nat.lt_trans m.hour_lt (by decide)),
      padded_eq (by decide) (Nat.lt_trans m.minute_lt (by decide)),
      padded_eq (by decide) (Nat.lt_trans m.second_lt (by decide))]
    simp
  simp only [momentOfIso?, dateOf?_writeDate hvalid, hwritten, twoDigits?, hour, minute, seconds,
    hoffset, Option.bind_eq_bind, Option.bind_some, true_or, if_true]
  exact of?_parts hvalid hday h.nonneg m.offset

/-- A civil moment is read back from the text that records carry. -/
theorem momentOfText_recordText (h : m.IsCivil) : momentOfText m.recordText = .fits m := by
  have hchars : m.recordText.toList =
      writeDate m.date ++ 'T' :: (m.writeTime ++ m.zoneChars) := by
    rw [recordText, String.toList_ofList, List.append_assoc]
    rfl
  simp only [momentOfText, hchars, momentOfDate?, momentOfIso?_written h, Option.some_or]

end Moment
end Conveyor
