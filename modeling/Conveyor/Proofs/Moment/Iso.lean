import Conveyor.Proofs.Moment.Column

/-!
# Moments in ISO text

The ISO text of a moment is read back as the moment, with its microseconds and with any offset, and the
text of its date as the start of its day. What is read is a moment of the calendar that can be written
again (`IsProper`).
-/

namespace Conveyor.Moment

/-- The calendar has the moment, and its clock is less than a day off universal time, if it is known. -/
structure IsProper (m : Moment) : Prop where
  calendar : inRange m.wall = true
  zone : ∀ o, m.offset = some o → o.natAbs < 86400000000

/-- A time of day, with microseconds only if there are any. -/
def timeChars (t : TimeParts) : List Char :=
  lastDigits 2 t.hour ++ ':' :: (lastDigits 2 t.minute ++ ':' :: (lastDigits 2 t.second ++
    (if t.micro = 0 then [] else '.' :: lastDigits 6 t.micro)))

/-- A time of day without seconds, if there are none. -/
def shortChars (t : TimeParts) : List Char :=
  if t.second = 0 ∧ t.micro = 0 then lastDigits 2 t.hour ++ ':' :: lastDigits 2 t.minute
  else timeChars t

/-- Each part of a time is less than what the part before it counts. -/
structure TimeParts.IsProper (t : TimeParts) : Prop where
  hour : t.hour < 24
  minute : t.minute < 60
  second : t.second < 60
  micro : t.micro < 1000000

/-- The microseconds that the parts of a time make up. -/
def TimeParts.total (t : TimeParts) : Nat :=
  ((t.hour * 60 + t.minute) * 60 + t.second) * 1000000 + t.micro

/-- The parts of a number of microseconds. -/
def partsOf (n : Nat) : TimeParts :=
  ⟨n / 1000000 / 3600, n / 1000000 / 60 % 60, n / 1000000 % 60, n % 1000000⟩

/-- The time of day of a moment. -/
def clock (m : Moment) : TimeParts := ⟨m.hour, m.minute, m.second, m.microsecond⟩

/-- The text of an offset, if there is one. -/
def offsetChars (m : Moment) : List Char :=
  match m.offset with
  | some offset => writeOffset [':'] offset
  | none => []

variable {m : Moment} {t : TimeParts} {rest : List Char}

/-! ## Parts -/

theorem partsOf_proper {n : Nat} (h : n < 86400000000) : (partsOf n).IsProper where
  hour := by
    show n / 1000000 / 3600 < 24
    omega
  minute := Nat.mod_lt _ (by decide)
  second := Nat.mod_lt _ (by decide)
  micro := Nat.mod_lt _ (by decide)

theorem total_partsOf (n : Nat) : (partsOf n).total = n := by
  simp only [partsOf, TimeParts.total]
  omega

theorem clock_proper (m : Moment) : m.clock.IsProper :=
  ⟨m.hour_lt, m.minute_lt, m.second_lt, m.microsecond_lt⟩

theorem TimeParts.IsProper.total_lt (h : t.IsProper) : t.total < 86400000000 := by
  obtain ⟨hour, minute, second, micro⟩ := h
  rw [TimeParts.total]
  omega

theorem IsProper.date_spec (h : m.IsProper) : m.date.isValid = true ∧ m.date.toDay = m.day :=
  Calendar.Date.ofDay_spec (day_lt (inRange_iff.mp h.calendar).2)

/-! ## Writing -/

theorem writeTime_eq (m : Moment) : m.writeTime = timeChars m.clock := by
  have hhour := m.hour_lt
  have hminute := m.minute_lt
  have hsecond := m.second_lt
  rw [writeTime, padded_eq (by decide) (by omega), padded_eq (by decide) (by omega),
    padded_eq (by decide) (by omega), padded_eq (by decide) m.microsecond_lt]
  simp only [timeChars, List.append_assoc, List.cons_append]
  rfl

/-- An offset is its sign and the parts of its distance. -/
theorem writeOffset_eq {o : Int} (h : o.natAbs < 86400000000) :
    writeOffset [':'] o = (if o < 0 then '-' else '+') :: shortChars (partsOf o.natAbs) := by
  have hwritten (t : TimeParts) (ht : partsOf o.natAbs = t) : writeOffset [':'] o =
      (if o < 0 then '-' else '+') :: padded 2 t.hour ++ [':'] ++ padded 2 t.minute
        ++ (if t.second = 0 ∧ t.micro = 0 then [] else [':'] ++ padded 2 t.second)
        ++ (if t.micro = 0 then [] else '.' :: padded 6 t.micro) := by
    subst ht
    rfl
  obtain ⟨hhour, hminute, hsecond, hmicro⟩ := partsOf_proper h
  rw [hwritten _ rfl, padded_eq (by decide) (by omega), padded_eq (by decide) (by omega),
    padded_eq (by decide) (by omega), padded_eq (by decide) hmicro, shortChars, timeChars]
  by_cases hseconds : (partsOf o.natAbs).second = 0 ∧ (partsOf o.natAbs).micro = 0
  · simp [hseconds]
  · simp [hseconds]

theorem mem_timeChars {c : Char} (h : c ∈ timeChars t) : isDigit c = true ∨ c ∈ [':', '.'] := by
  have digits {width n : Nat} (h : c ∈ lastDigits width n) := isDigit_of_mem_lastDigits h
  simp only [timeChars, List.mem_append, List.mem_cons] at h
  split at h <;> grind

theorem mem_shortChars {c : Char} (h : c ∈ shortChars t) : isDigit c = true ∨ c ∈ [':', '.'] := by
  have digits {width n : Nat} (h : c ∈ lastDigits width n) := isDigit_of_mem_lastDigits h
  unfold shortChars at h
  split at h
  · simp only [List.mem_append, List.mem_cons] at h
    grind
  · exact mem_timeChars h

/-! ## Reading times -/

theorem dropWhile_isDigit (hrest : ∀ c, rest.head? = some c → isDigit c = false) :
    rest.dropWhile isDigit = rest := by
  cases rest with
  | nil => rfl
  | cons c rest => simp [hrest c rfl]

/-- A time of day is read back up to what follows it. -/
theorem readClock?_timeChars (h : t.IsProper) (rest : List Char)
    (hrest : ∀ c, rest.head? = some c → isDigit c = false) :
    readClock? (timeChars t).length (timeChars t ++ rest) = some (t, !rest.isEmpty) := by
  obtain ⟨hour, minute, second, micro⟩ := t
  have hhour := readDigits?_two (Nat.lt_trans h.hour (by decide))
  have hminute := readDigits?_two (Nat.lt_trans h.minute (by decide))
  have hsecond := readDigits?_two (Nat.lt_trans h.second (by decide))
  by_cases hzero : micro = 0
  · subst hzero
    have hlength : (timeChars ⟨hour, minute, second, 0⟩).length = 8 := by
      simp [timeChars, length_lastDigits]
    rw [hlength, readClock?]
    cases rest with
    | nil =>
      have hlast := hsecond []
      rw [List.append_nil] at hlast
      simp [timeChars, readTimeParts?, hhour, hminute, hlast]
    | cons c rest => simp [timeChars, readTimeParts?, hhour, hminute, hsecond]
  · have hmicro (rest : List Char) :
        readDigits? 6 0 (lastDigits 6 micro ++ rest) = some (micro, rest) :=
      readDigits?_lastDigits h.micro rest
    have hlength : (timeChars ⟨hour, minute, second, micro⟩).length = 15 := by
      simp [timeChars, length_lastDigits, hzero]
    rw [hlength, readClock?]
    simp [timeChars, hzero, readTimeParts?, readFraction?, hhour, hminute, hsecond, hmicro,
      dropWhile_isDigit hrest]

theorem readClock?_shortChars (h : t.IsProper) :
    readClock? (shortChars t).length (shortChars t) = some (t, false) := by
  unfold shortChars
  by_cases hwhole : t.second = 0 ∧ t.micro = 0
  · rw [if_pos hwhole]
    obtain ⟨hour, minute, second, micro⟩ := t
    obtain ⟨rfl, rfl⟩ : second = 0 ∧ micro = 0 := hwhole
    have hhour := readDigits?_two (Nat.lt_trans h.hour (by decide))
    have hminute : readDigits? 2 0 (lastDigits 2 minute ++ []) = some (minute, []) :=
      readDigits?_two (Nat.lt_trans h.minute (by decide)) []
    rw [List.append_nil] at hminute
    simp [readClock?, length_lastDigits, readTimeParts?, hhour, hminute]
  · rw [if_neg hwhole]
    have hread := readClock?_timeChars h [] (by simp)
    rwa [List.append_nil] at hread

theorem precedesOffset_timeChars (t : TimeParts) :
    ∀ c ∈ timeChars t, (c != '+' && c != '-' && c != 'Z') = true := by
  intro c hc
  rcases mem_timeChars hc with hdigit | hmark
  · exact precedesOffset_of_isDigit hdigit
  · simp only [List.mem_cons, List.not_mem_nil, or_false] at hmark
    rcases hmark with rfl | rfl <;> rfl

/-- A time of day is read back alone. -/
theorem readTime?_timeChars (h : t.IsProper) : readTime? (timeChars t) = some (t, none) := by
  have hread := readClock?_timeChars h [] (by simp)
  have hposition : offsetPosition (timeChars t ++ []) = (timeChars t).length :=
    offsetPosition_append (precedesOffset_timeChars t) (by simp)
  rw [List.append_nil] at hread hposition
  rw [readTime?, hposition, hread]
  simp

/-- A time of day is read back with the offset after it. -/
theorem readTime?_append {sign : Char} {o : TimeParts} (h : t.IsProper) (ho : o.IsProper)
    (hsign : sign = '+' ∨ sign = '-') : readTime? (timeChars t ++ sign :: shortChars o) =
      some (t, some (if sign = '-' then -(o.total : Int) else o.total)) := by
  have hday : (o.total : Int) < dayMicros := by
    have hlt := ho.total_lt
    unfold dayMicros
    omega
  have htotal : (((o.hour : Int) * 60 + o.minute) * 60 + o.second) * 1000000 + o.micro = o.total := by
    rw [TimeParts.total]
    omega
  have hposition : offsetPosition (timeChars t ++ sign :: shortChars o) = (timeChars t).length := by
    apply offsetPosition_append (precedesOffset_timeChars t)
    rintro c ⟨⟩
    rcases hsign with rfl | rfl <;> rfl
  have hread := readClock?_timeChars h (sign :: shortChars o) (by
    rintro c ⟨⟩
    rcases hsign with rfl | rfl <;> rfl)
  rw [readTime?, hposition, hread]
  simp only [Option.bind_eq_bind, Option.bind_some, List.drop_left]
  split
  case h_1 hnil => cases hnil
  case h_2 hzulu =>
    obtain ⟨rfl, -⟩ := List.cons.inj hzulu
    exact absurd hsign (by decide)
  case h_3 hcons =>
    obtain ⟨rfl, rfl⟩ := List.cons.inj hcons
    rw [readClock?_shortChars ho, Option.bind_some, if_neg Bool.false_ne_true]
    simp only [htotal, if_pos hday, beq_iff_eq]

/-- A time of day is read back with the offset of a moment. -/
theorem readTime?_written (ht : t.IsProper) (hm : m.IsProper) :
    readTime? (timeChars t ++ m.offsetChars) = some (t, m.offset) := by
  cases ho : m.offset with
  | none =>
    have hempty : m.offsetChars = [] := by rw [offsetChars, ho]
    rw [hempty, List.append_nil]
    exact readTime?_timeChars ht
  | some o =>
    have hoffset : m.offsetChars = writeOffset [':'] o := by rw [offsetChars, ho]
    rw [hoffset, writeOffset_eq (hm.zone o ho)]
    by_cases hsign : o < 0
    · rw [if_pos hsign, readTime?_append ht (partsOf_proper (hm.zone o ho)) (.inr rfl), if_pos rfl,
        total_partsOf]
      congr 3
      omega
    · rw [if_neg hsign, readTime?_append ht (partsOf_proper (hm.zone o ho)) (.inl rfl),
        if_neg (by decide), total_partsOf]
      congr 3
      omega

/-! ## Reading moments -/

theorem isIsoChar_dateChars {d : Calendar.Date} {clock : List Char}
    (h : ∀ c ∈ clock, IsIsoChar c) : ∀ c ∈ dateChars d clock, IsIsoChar c := by
  intro c hc
  have digits {width n : Nat} (h : c ∈ lastDigits width n) := isDigit_of_mem_lastDigits h
  have hclock := h c
  simp only [dateChars, List.mem_append, List.mem_cons] at hc
  unfold IsIsoChar at hclock ⊢
  grind

theorem isIsoChar_time {c : Char} (h : isDigit c = true ∨ c ∈ [':', '.']) : IsIsoChar c := by
  refine h.imp_right fun hmark => ?_
  simp only [List.mem_cons, List.not_mem_nil, or_false] at hmark
  rcases hmark with rfl | rfl <;> decide

theorem isIsoChar_offsetChars (h : m.IsProper) : ∀ c ∈ m.offsetChars, IsIsoChar c := by
  intro c hc
  unfold offsetChars at hc
  cases ho : m.offset with
  | none =>
    rw [ho] at hc
    cases hc
  | some o =>
    simp only [ho, writeOffset_eq (h.zone o ho), List.mem_cons] at hc
    rcases hc with rfl | hc
    · split
      · exact .inr (by decide)
      · exact .inr (by decide)
    · exact isIsoChar_time (mem_shortChars hc)

/-- The text of a moment from its parts. -/
theorem toList_isoText (h : m.IsProper) :
    m.isoText.toList = dateChars m.date (timeChars m.clock ++ m.offsetChars) := by
  have hwritten : m.isoText = String.ofList (writeDate m.date ++ 'T' :: m.writeTime ++ m.offsetChars) :=
    rfl
  rw [hwritten, String.toList_ofList, writeDate_eq h.date_spec.1, writeTime_eq, dateChars]
  simp only [List.append_assoc, List.cons_append]

theorem isIsoChar_isoText (h : m.IsProper) : ∀ c ∈ m.isoText.toList, IsIsoChar c := by
  rw [toList_isoText h]
  refine isIsoChar_dateChars fun c hc => ?_
  rcases List.mem_append.mp hc with htime | hoffset
  · exact isIsoChar_time (mem_timeChars htime)
  · exact isIsoChar_offsetChars h c hoffset

theorem isIsoChar_writeDate {d : Calendar.Date} (h : d.isValid = true) :
    ∀ c ∈ writeDate d, IsIsoChar c := by
  intro c hc
  have digits {width n : Nat} (h : c ∈ lastDigits width n) := isDigit_of_mem_lastDigits h
  rw [writeDate_eq h] at hc
  simp only [List.mem_append, List.mem_cons] at hc
  unfold IsIsoChar
  grind

/-- The text of a moment is read back as the moment. -/
theorem readIso?_isoText (h : m.IsProper) : readIso? m.isoText.toList = some m := by
  obtain ⟨hvalid, hday⟩ := h.date_spec
  obtain ⟨hyear, hmonth, hdayOfMonth⟩ := Calendar.Date.widths hvalid
  have hdate := readDate?_dateChars hyear hmonth hdayOfMonth (timeChars m.clock ++ m.offsetChars)
  have htime := readTime?_written m.clock_proper h
  have hparts := of?_parts hvalid hday (inRange_iff.mp h.calendar).1 m.offset
  have hlength : ¬(dateChars m.date (timeChars m.clock ++ m.offsetChars)).length < 7 := by
    simp only [dateChars, List.length_append, List.length_cons, length_lastDigits]
    omega
  have hdrop : (dateChars m.date (timeChars m.clock ++ m.offsetChars)).drop 10 =
      'T' :: (timeChars m.clock ++ m.offsetChars) := rfl
  rw [readIso?, byteUnits_eq fun c hc => (isIsoChar_isoText h c hc).utf8Size, toList_isoText h]
  have hmark : afterSeparator ('T' :: (timeChars m.clock ++ m.offsetChars)) =
      timeChars m.clock ++ m.offsetChars := rfl
  simp only [if_neg hlength, separatorPosition_dateChars, hdate, hdrop, hmark, htime,
    Option.bind_eq_bind, Option.bind_some, List.isEmpty_cons, Bool.false_eq_true, if_false]
  exact hparts

/-- The text of a date is read as the start of its day. -/
theorem readIso?_writeDate (h : m.IsProper) :
    readIso? (writeDate m.date) = some ⟨m.day * dayMicros, none⟩ := by
  obtain ⟨hvalid, hday⟩ := h.date_spec
  obtain ⟨hyear, hmonth, hdayOfMonth⟩ := Calendar.Date.widths hvalid
  have hdate := readDate?_append hyear hmonth hdayOfMonth []
  rw [List.append_nil, ← writeDate_eq hvalid] at hdate
  have hlength : (writeDate m.date).length = 10 := by
    simp [writeDate_eq hvalid, length_lastDigits]
  have hposition : separatorPosition (writeDate m.date) = 10 := by
    refine separatorPosition_eq (c := (m.date.month / 10 % 10).digitChar) (by omega) ?_ ?_
      (digitChar_ne (Nat.mod_lt _ (by decide)) rfl)
    · rw [writeDate_eq hvalid]
      rfl
    · rw [writeDate_eq hvalid]
      rfl
  have hdrop : (writeDate m.date).drop 10 = [] := List.drop_eq_nil_of_le (by omega)
  rw [readIso?, byteUnits_eq fun c hc => (isIsoChar_writeDate hvalid c hc).utf8Size]
  have hlong : ¬(writeDate m.date).length < 7 := by omega
  simp only [if_neg hlong, hposition, hdate, hdrop, Option.bind_eq_bind, Option.bind_some,
    List.isEmpty_nil, if_true]
  rw [Moment.of?, if_pos ⟨hvalid, by decide, by decide, by decide⟩, hday]
  simp

/-! ## What is read -/

/-- So many digits write a number below the power of ten. -/
theorem lt_of_readDigits? {count acc n : Nat} {cs : List Char}
    (h : readDigits? count acc cs = some (n, rest)) : n < (acc + 1) * 10 ^ count := by
  induction count generalizing acc cs with
  | zero =>
    cases h
    omega
  | succ count ih =>
    cases cs with
    | nil => cases h
    | cons c cs =>
      rw [readDigits?] at h
      split at h
      · rename_i hdigit
        have hlt := ih h
        simp only [isDigit, Bool.and_eq_true, decide_eq_true_eq] at hdigit
        have hacc : acc * 10 + (c.toNat - 48) + 1 ≤ (acc + 1) * 10 := by omega
        calc n
            < (acc * 10 + (c.toNat - 48) + 1) * 10 ^ count := hlt
          _ ≤ (acc + 1) * 10 * 10 ^ count := Nat.mul_le_mul_right _ hacc
          _ = (acc + 1) * 10 ^ (count + 1) := by rw [Nat.mul_assoc, Nat.pow_succ']
      · cases h

theorem micro_of_readFraction? {length n : Nat} {cs : List Char} {more : Bool}
    (h : readFraction? length cs = some (n, more)) : n < 1000000 := by
  obtain ⟨⟨digits, after⟩, hread, h⟩ := Option.bind_eq_some_iff.mp h
  have hlt := lt_of_readDigits? hread
  dsimp only at h
  split at h
  · cases h
  · cases h
    have hcount : min length 6 + (6 - min length 6) = 6 := by omega
    calc digits * 10 ^ (6 - min length 6)
        < 1 * 10 ^ min length 6 * 10 ^ (6 - min length 6) :=
          Nat.mul_lt_mul_of_pos_right (by simpa using hlt) (Nat.pow_pos (by decide))
      _ = 1000000 := by rw [Nat.one_mul, ← Nat.pow_add, hcount]

/-- The microseconds of a time are less than a second. -/
theorem micro_of_readTimeParts? {fuel index length : Nat} {separated more : Bool} {start : TimeParts}
    {cs : List Char} (hstart : start.micro < 1000000)
    (h : readTimeParts? fuel index separated start length cs = some (t, more)) : t.micro < 1000000 := by
  induction fuel generalizing index separated start length cs with
  | zero =>
    obtain ⟨⟨n, after⟩, hread, h⟩ := Option.bind_eq_some_iff.mp h
    cases h
    exact micro_of_readFraction? hread
  | succ fuel ih =>
    rw [readTimeParts?] at h
    obtain ⟨⟨n, after⟩, -, h⟩ := Option.bind_eq_some_iff.mp h
    dsimp only at h
    split at h
    · cases h
      split <;> exact hstart
    · rename_i c tail
      generalize (if index = 0 then c == ':' else separated) = colons at h
      split at h
      · cases h
        split <;> exact hstart
      split at h
      · refine ih ?_ h
        split <;> exact hstart
      split at h
      · obtain ⟨⟨micro, after⟩, hread, h⟩ := Option.bind_eq_some_iff.mp h
        cases h
        exact micro_of_readFraction? hread
      split at h
      · refine ih ?_ h
        split <;> exact hstart
      · cases h

/-- The microseconds that are read are less than a second, and an offset is less than a day. -/
theorem bounds_of_readTime? {cs : List Char} {offset : Option Int}
    (h : readTime? cs = some (t, offset)) :
    t.micro < 1000000 ∧ ∀ o, offset = some o → o.natAbs < 86400000000 := by
  obtain ⟨⟨time, more⟩, hread, h⟩ := Option.bind_eq_some_iff.mp h
  have hmicro := micro_of_readTimeParts? (by decide) hread
  dsimp only at h
  split at h
  · split at h
    · cases h
    · cases h
      exact ⟨hmicro, by simp⟩
  · split at h
    · cases h
      refine ⟨hmicro, ?_⟩
      rintro _ ⟨⟩
      decide
    · cases h
  · obtain ⟨⟨parts, after⟩, -, h⟩ := Option.bind_eq_some_iff.mp h
    dsimp only at h
    split at h
    · cases h
    split at h
    · rename_i hday
      cases h
      refine ⟨hmicro, ?_⟩
      rintro _ ⟨⟩
      unfold dayMicros at hday
      split <;> omega
    · cases h

/-- A moment that is put together of its parts is one of the calendar. -/
theorem isProper_of_of? {d : Calendar.Date} {hour minute second micro : Nat} {offset : Option Int}
    (hmicro : micro < 1000000) (hoffset : ∀ o, offset = some o → o.natAbs < 86400000000)
    (h : Moment.of? d hour minute second micro offset = some m) : m.IsProper := by
  unfold Moment.of? at h
  split at h
  · rename_i hparts
    obtain ⟨hvalid, hhour, hminute, hsecond⟩ := hparts
    have hday := Calendar.Date.toDay_lt_dayCount hvalid
    cases h
    refine ⟨inRange_iff.mpr ?_, hoffset⟩
    unfold wallLimit dayMicros Calendar.dayCount at *
    dsimp only
    omega
  · cases h

/-- What ISO text is read as can be written again. -/
theorem isProper_of_readIso? {cs : List Char} (h : readIso? cs = some m) : m.IsProper := by
  unfold readIso? at h
  dsimp only at h
  split at h
  · cases h
  obtain ⟨d, -, h⟩ := Option.bind_eq_some_iff.mp h
  split at h
  · exact isProper_of_of? (by decide) (by rintro _ ⟨⟩) h
  · obtain ⟨⟨time, offset⟩, hread, h⟩ := Option.bind_eq_some_iff.mp h
    obtain ⟨hmicro, hoffset⟩ := bounds_of_readTime? hread
    exact isProper_of_of? hmicro hoffset h

/-- And so can a count of microseconds. -/
theorem isProper_of_ofEpochMicros? {micros : Int} (h : ofEpochMicros? micros = some m) :
    m.IsProper := by
  unfold ofEpochMicros? at h
  split at h
  · rename_i hrange
    cases h
    refine ⟨hrange, ?_⟩
    rintro _ ⟨⟩
    decide
  · cases h

end Conveyor.Moment
