import Conveyor.Proofs.Log.Serving

/-!
# Columns in the order of time

A table compares moments by the bytes of their columns. From the year 1000 to the year 9999 this is the
order of the points in time, whatever clocks the moments were read from, and each column gives back the
point in time that was written. So a table of such entries selects, sorts and purges them by time.
-/

namespace Conveyor

/-! ## Bytes -/

namespace Text

variable {s t : String}

/-- The bytes of a text. -/
def bytes (s : String) : List UInt8 := s.toUTF8.data.toList

theorem ofUInt8_lt {a b : UInt8} (h : a < b) : Char.ofUInt8 a < Char.ofUInt8 b := by
  show a.toUInt32 < b.toUInt32
  rw [UInt32.lt_iff_toNat_lt, UInt8.toNat_toUInt32, UInt8.toNat_toUInt32]
  exact UInt8.lt_iff_toNat_lt.mp h

theorem ofUInt8_toUInt8 {c : Char} (h : c.utf8Size = 1) : Char.ofUInt8 c.val.toUInt8 = c := by
  have hval : c.val.toNat ≤ 127 := Char.utf8Size_eq_one_iff.mp h
  refine Char.ext (UInt32.toNat_inj.mp ?_)
  show c.val.toUInt8.toUInt32.toNat = c.val.toNat
  rw [UInt8.toNat_toUInt32, UInt32.toNat_toUInt8]
  exact Nat.mod_eq_of_lt (by omega)

/-- A text of one byte for each character has these for its bytes. -/
theorem bytes_eq (h : ∀ c ∈ s.toList, c.utf8Size = 1) :
    bytes s = s.toList.map fun c => c.val.toUInt8 := by
  rw [bytes, String.toUTF8, ← String.utf8Encode_toList, List.utf8Encode,
    List.toList_data_toByteArray]
  generalize s.toList = cs at h
  induction cs with
  | nil => rfl
  | cons c cs ih =>
    obtain ⟨hc, hcs⟩ := List.forall_mem_cons.mp h
    rw [List.flatMap_cons, String.utf8EncodeChar_eq_singleton hc, ih hcs]
    rfl

theorem map_ofUInt8_bytes (h : ∀ c ∈ s.toList, c.utf8Size = 1) :
    (bytes s).map Char.ofUInt8 = s.toList := by
  rw [bytes_eq h, List.map_map]
  exact (List.map_congr_left fun c hc => ofUInt8_toUInt8 (h c hc)).trans (List.map_id _)

theorem lt_of_bytes_lt (hs : ∀ c ∈ s.toList, c.utf8Size = 1) (ht : ∀ c ∈ t.toList, c.utf8Size = 1)
    (h : bytes s < bytes t) : s < t := by
  rw [String.lt_iff, ← map_ofUInt8_bytes hs, ← map_ofUInt8_bytes ht]
  exact List.map_lt (fun _ _ => ofUInt8_lt) h

/-- Texts of one byte for each character are in the order of their bytes. -/
theorem le_iff_bytes_le (hs : ∀ c ∈ s.toList, c.utf8Size = 1)
    (ht : ∀ c ∈ t.toList, c.utf8Size = 1) : s ≤ t ↔ bytes s ≤ bytes t := by
  constructor
  · intro hle
    exact List.not_lt.mp fun hlt => String.not_lt.mpr hle (lt_of_bytes_lt ht hs hlt)
  · intro hle
    rcases List.le_iff_lt_or_eq.mp hle with hlt | heq
    · exact String.not_lt.mp (String.lt_asymm (lt_of_bytes_lt hs ht hlt))
    · obtain rfl : s = t := by
        rw [← String.toList_inj, ← map_ofUInt8_bytes hs, heq, map_ofUInt8_bytes ht]
      exact String.le_refl s

end Text

/-! ## Columns -/

namespace Moment

variable {m m' : Moment}

/-- A column has room for the years of four digits in universal time. -/
theorem fitsColumn_iff :
    m.FitsColumn ↔ 1000 ≤ m.toUniversal.date.year ∧ m.toUniversal.date.year ≤ 9999 := by
  constructor
  · intro h
    obtain ⟨hfirst, hlast⟩ := h.year
    exact ⟨hfirst, Nat.le_of_lt_succ hlast⟩
  · rintro ⟨hfirst, hlast⟩
    have hafter : Calendar.daysBeforeYear 1000 ≤ m.toUniversal.day :=
      Nat.le_trans (Calendar.daysBeforeYear_mono hfirst) (Calendar.Date.daysBeforeYear_ofDay_le _)
    have hbefore : m.toUniversal.day < Calendar.daysBeforeYear 10000 := by
      refine Nat.lt_of_not_le fun hle => ?_
      exact Nat.not_lt.mpr hlast (Calendar.Date.le_year_ofDay hle)
    have hday : m.toUniversal.day = (m.instant / dayMicros).toNat := rfl
    rw [hday, show Calendar.daysBeforeYear 1000 = 364877 from rfl] at hafter
    rw [hday, show Calendar.daysBeforeYear 10000 = 3652059 from rfl] at hbefore
    rw [FitsColumn, show Calendar.daysBeforeYear 1000 = 364877 from rfl,
      show wallLimit = 3652059 * dayMicros from rfl]
    unfold dayMicros at hafter hbefore ⊢
    omega

theorem utf8Size_column {c : Char} (h : c ∈ m.column.toList) : c.utf8Size = 1 := by
  rw [column, String.toList_ofList] at h
  exact (mem_columnChars h).utf8Size

/-- Columns are in the order of their bytes. -/
theorem column_le_iff_bytes : m.column ≤ m'.column ↔ Text.bytes m.column ≤ Text.bytes m'.column :=
  Text.le_iff_bytes_le (fun _ => utf8Size_column) fun _ => utf8Size_column

end Moment

/-! ## Tables -/

namespace TableLog

variable {es : List LogEntry} {rows : List LogRow}

/-- The rows that entries are written to. -/
theorem written (h : ∀ e ∈ es, e.FitsColumns) (hrows : es.mapM LogRow.ofEntry = .ok rows) :
    (∀ e ∈ es, LogRow.ofEntry e = .ok e.row) ∧ rows = es.map LogEntry.row := by
  have hall := Outcome.mapM_eq_ok_iff.mp hrows
  clear hrows
  induction hall with
  | nil => exact ⟨List.forall_mem_nil _, rfl⟩
  | cons hrow _ ih =>
    obtain ⟨he, hes⟩ := List.forall_mem_cons.mp h
    obtain ⟨hwritten, hrows⟩ := ih hes
    have hhead := LogRow.eq_row he hrow
    refine ⟨List.forall_mem_cons.mpr ⟨hhead ▸ hrow, hwritten⟩, ?_⟩
    rw [hhead, hrows]
    rfl

/-- From the year 1000 to the year 9999, and whatever clocks the moments were read from, columns are in
the order of time and give back the point in time. So a query of a table serves the entries that its
filter covers with the newest first, and a purge removes those whose time is over, as the points in time
say. -/
theorem columns_tell_time :
    (∀ m : Moment, m.FitsColumn ↔
      1000 ≤ m.toUniversal.date.year ∧ m.toUniversal.date.year ≤ 9999) ∧
    (∀ a b : Moment, a.FitsColumn → b.FitsColumn →
      ∃ s t, a.columnText = .ok s ∧ b.columnText = .ok t ∧
        (a.instant ≤ b.instant ↔ Text.bytes s ≤ Text.bytes t) ∧
        (s ≤ t ↔ Text.bytes s ≤ Text.bytes t) ∧
        ∃ m, Moment.ofColumnText s = .ok m ∧ m.instant = a.instant) ∧
    ∀ (es : List LogEntry) (rows : List LogRow), (∀ e ∈ es, e.FitsColumns) →
      es.mapM LogRow.ofEntry = .ok rows →
      (∀ (f : LogFilter) (limit offset : Int), (∀ t, f.dateFrom = some t → t.FitsColumn) →
        (∀ t, f.dateTo = some t → t.FitsColumn) →
        fitsColumn limit = true → fitsColumn offset = true →
        ∃ (served : List LogEntry) (found : List LogRow), served.Perm (es.filter f.covers) ∧
          served.Pairwise (fun e e' => e'.createdAt.instant ≤ e.createdAt.instant) ∧
          served.mapM LogRow.ofEntry = .ok found ∧
          query ⟨rows⟩ f limit offset = (do
            let items ← (page found limit offset).mapM LogRow.toEntry
            pure { items, total := served.length, limit, offset })) ∧
      ∀ now : Moment, now.FitsColumn → ∃ kept,
        (es.filter fun e => !e.isOver now).mapM LogRow.ofEntry = .ok kept ∧
          purge ⟨rows⟩ now = .ok (es.countP (LogEntry.isOver now), ⟨kept⟩) := by
  refine ⟨fun m => Moment.fitsColumn_iff, ?_, ?_⟩
  · intro a b ha hb
    refine ⟨a.column, b.column, Moment.columnText_eq ha, Moment.columnText_eq hb, ?_,
      Moment.column_le_iff_bytes, a.toUniversal, Moment.ofColumnText_column ha, ?_⟩
    · rw [← Moment.column_le_iff_bytes, Moment.column_le_iff ha hb]
    · exact Int.sub_zero _
  · intro es rows h hrows
    obtain ⟨hwritten, rfl⟩ := written h hrows
    have hpart_written {part : List LogEntry} (hpart : ∀ e ∈ part, e ∈ es) :
        part.mapM LogRow.ofEntry = .ok (part.map LogEntry.row) :=
      Outcome.mapM_eq_ok_map fun e he => hwritten e (hpart e he)
    constructor
    · intro f limit offset hfrom hto hlimit hoffset
      have hperm : (MemoryLog.newestFirst (es.filter f.covers).reverse).Perm (es.filter f.covers) :=
        (List.mergeSort_perm _ _).trans (List.reverse_perm _)
      have hquery := query_of_fits (fun e he => (h e he).createdAt) hfrom hto hlimit hoffset
      rw [newestFirst_rows fun e he => (h e (List.mem_filter.mp he).1).createdAt,
        ← hperm.length_eq] at hquery
      refine ⟨_, _, hperm, MemoryLog.pairwise_newestFirst _, hpart_written fun e he => ?_, hquery⟩
      exact (List.mem_filter.mp (hperm.mem_iff.mp he)).1
    · intro now hnow
      exact ⟨_, hpart_written fun e he => (List.mem_filter.mp he).1, purge_ofEntries h hnow⟩

/-- An entry that is made at a moment and over at once. -/
def momentary (id : String) (m : Moment) : LogEntry where
  id := id
  dataId := "d"
  source := "s"
  createdAt := m
  updatedAt := m
  expiresAt := some m

/-- Half past midnight on New Year of 2024, on a clock an hour ahead. -/
def newYear : Moment := ⟨(Calendar.Date.toDay ⟨2024, 1, 1⟩ : Int) * Moment.dayMicros + 1800000000,
  some 3600000000⟩

/-- A quarter to midnight and a microsecond on the last day of 2023, without a clock. -/
def yearEnd : Moment :=
  ⟨(Calendar.Date.toDay ⟨2023, 12, 31⟩ : Int) * Moment.dayMicros + 85500000001, none⟩

theorem fits_momentary {m : Moment} (h : m.FitsColumn) (id : String) :
    (momentary id m).FitsColumns := by
  refine ⟨h, h, ?_⟩
  rintro t ⟨⟩
  exact h

/-- New Year on a clock ahead comes before the end of the year in universal time, and a purge between
the two keeps the later entry. -/
theorem newYear_before_yearEnd :
    (∃ s t, newYear.columnText = .ok s ∧ yearEnd.columnText = .ok t ∧
      Text.bytes s ≤ Text.bytes t ∧ ¬ Text.bytes t ≤ Text.bytes s) ∧
    ∃ rows kept, [momentary "a" newYear, momentary "b" yearEnd].mapM LogRow.ofEntry = .ok rows ∧
      [momentary "b" yearEnd].mapM LogRow.ofEntry = .ok kept ∧
      purge ⟨rows⟩ newYear = .ok (1, ⟨kept⟩) := by
  have hnew : newYear.FitsColumn := ⟨by decide +kernel, by decide +kernel⟩
  have hend : yearEnd.FitsColumn := ⟨by decide +kernel, by decide +kernel⟩
  obtain ⟨-, hcolumns, htables⟩ := columns_tell_time
  constructor
  · obtain ⟨s, t, hs, ht, hle, -⟩ := hcolumns newYear yearEnd hnew hend
    obtain ⟨t', s', ht', hs', hle', -⟩ := hcolumns yearEnd newYear hend hnew
    cases ht.symm.trans ht'
    cases hs.symm.trans hs'
    exact ⟨s, t, hs, ht, hle.mp (by decide +kernel), fun h => absurd (hle'.mpr h) (by decide +kernel)⟩
  · have hfits : ∀ e ∈ [momentary "a" newYear, momentary "b" yearEnd], e.FitsColumns :=
      List.forall_mem_cons.mpr ⟨fits_momentary hnew "a", List.forall_mem_singleton.mpr
        (fits_momentary hend "b")⟩
    have hrows := Outcome.mapM_eq_ok_map fun e he => LogRow.ofEntry_of_fits (hfits e he) (by
      revert e he
      decide)
    obtain ⟨-, hpurge⟩ := htables _ _ hfits hrows
    obtain ⟨kept, hkept, hleft⟩ := hpurge newYear hnew
    have hover : [momentary "a" newYear, momentary "b" yearEnd].filter (!·.isOver newYear) =
      [momentary "b" yearEnd] := rfl
    rw [hover] at hkept
    exact ⟨_, kept, hrows, hkept, hleft⟩

end TableLog

end Conveyor
