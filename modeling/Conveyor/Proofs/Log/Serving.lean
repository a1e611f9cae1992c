import Conveyor.Proofs.Keyed
import Conveyor.Proofs.Log.Requests

/-!
# Logs of a list of entries

The log in memory and the table that hold the same entries in the same order serve every ordinary
request as the list of these entries does, the table in universal time.
-/

namespace Conveyor

variable {es : List LogEntry}

/-- The log in memory that holds the entries. -/
def MemoryLog.ofEntries (es : List LogEntry) : MemoryLog := ⟨es.map fun e => (e.id, e)⟩

/-- The table that holds the entries. -/
def TableLog.ofEntries (es : List LogEntry) : TableLog := ⟨es.map LogEntry.row⟩

/-! ## In memory -/

namespace MemoryLog

theorem keys_ofEntries (es : List LogEntry) :
    (ofEntries es).entries.keys = es.map (·.id) := by
  simp [ofEntries, Keyed.keys]

theorem values_ofEntries (es : List LogEntry) : (ofEntries es).values = es := by
  simp [ofEntries, values, Function.comp_def]

theorem append_ofEntries {e : LogEntry} (new : e.id ∉ es.map (·.id)) :
    (ofEntries es).append e = ofEntries (es ++ [e]) := by
  rw [← keys_ofEntries] at new
  rw [append, Keyed.put_of_not_mem e new]
  simp [ofEntries]

theorem has_ofEntries (es : List LogEntry) (id : String) :
    (ofEntries es).entries.has id = true ↔ id ∈ es.map (·.id) := by
  rw [← keys_ofEntries, Keyed.has, Option.isSome_iff_ne_none, ne_eq, Keyed.get?_eq_none_iff,
    Classical.not_not]

theorem update_ofEntries (h : (es.map (·.id)).Nodup) (e : LogEntry) :
    (ofEntries es).update e = ofEntries (es.map fun old => if old.id = e.id then e else old) := by
  by_cases hmem : e.id ∈ es.map (·.id)
  · rw [update, if_pos ((has_ofEntries es e.id).mpr hmem), append]
    rw [← keys_ofEntries] at h hmem
    rw [Keyed.put_eq_map e h hmem]
    simp only [ofEntries, List.map_map]
    refine congrArg MemoryLog.mk (List.map_congr_left fun old _ => ?_)
    by_cases hid : old.id = e.id <;> simp [hid]
  · have hsame : es.map (fun old => if old.id = e.id then e else old) = es := by
      refine (List.map_congr_left fun old hold => if_neg fun hid => hmem ?_).trans (List.map_id es)
      rw [← hid]
      exact List.mem_map_of_mem hold
    rw [update, if_neg ((has_ofEntries es e.id).not.mpr hmem), hsame]

theorem delete_ofEntries (h : (es.map (·.id)).Nodup) (id : String) :
    (ofEntries es).delete id = ofEntries (es.filter fun e => e.id ≠ id) := by
  rw [← keys_ofEntries] at h
  rw [delete, Keyed.erase_eq_filter h]
  simp [ofEntries, List.filter_map, Function.comp_def]

theorem get?_ofEntries (es : List LogEntry) (id : String) :
    (ofEntries es).get? id = es.find? fun e => e.id = id := by
  induction es with
  | nil => rfl
  | cons e es ih =>
    show (if e.id = id then some e else (ofEntries es).get? id) = _
    rw [ih, List.find?_cons]
    by_cases hid : e.id = id <;> simp [hid]

theorem admits_eq {f : LogFilter} {e : LogEntry} (he : e.createdAt.offset.isSome = true)
    (hf : f.IsAware) : admits f e = .ok (f.covers e) := by
  rw [admits, LogFilter.covers]
  cases f.admitsTexts e with
  | false => rfl
  | true =>
    simp only [Bool.not_true, Bool.false_eq_true, if_false, Bool.true_and]
    refine Outcome.bind_eq_ok_iff.mpr
      ⟨!f.dateFrom.all fun t => t.instant ≤ e.createdAt.instant, ?_, ?_⟩
    · cases hfrom : f.dateFrom with
      | none => rfl
      | some t => exact Moment.before_eq he (hf.dateFrom t hfrom)
    · cases f.dateFrom.all fun t => t.instant ≤ e.createdAt.instant with
      | false => rfl
      | true =>
        cases hto : f.dateTo with
        | none => rfl
        | some t => exact Moment.notBefore_eq (hf.dateTo t hto) he

theorem isMixed_eq_false (h : ∀ e ∈ es, e.createdAt.offset.isSome = true) :
    isMixed es = false := by
  have hnone : (es.any fun e => e.createdAt.offset.isNone) = false := by
    rw [List.any_eq_false]
    intro e he hnone
    rw [Option.isNone_iff_eq_none] at hnone
    exact Option.isSome_iff_ne_none.mp (h e he) hnone
  rw [isMixed, hnone, Bool.and_false]

/-- A query is answered if the moments that it compares have offsets. -/
theorem query_eq {l : MemoryLog} (aware : ∀ e ∈ l.values, e.createdAt.offset.isSome = true)
    {f : LogFilter} (hf : f.IsAware) (limit offset : Int) :
    l.query f limit offset = .ok
      { items := Position.slice (newestFirst (l.values.filter f.covers)) offset (offset + limit)
        total := (l.values.filter f.covers).length
        limit := limit
        offset := offset } := by
  have hfound : l.values.filterM (admits f) = .ok (l.values.filter f.covers) :=
    Outcome.filterM_eq_ok fun e he => admits_eq (aware e he) hf
  have hmixed : isMixed (l.values.filter f.covers) = false :=
    isMixed_eq_false fun e he => aware e (List.mem_filter.mp he).1
  refine Outcome.bind_eq_ok_iff.mpr ⟨_, hfound, ?_⟩
  rw [if_neg (Bool.eq_false_iff.mp hmixed)]
  rfl

theorem query_ofEntries (h : ∀ e ∈ es, e.IsOrdinary) {f : LogFilter} {limit offset : Int}
    (ordinary : (LogRequest.query f limit offset).IsOrdinary) :
    (ofEntries es).query f limit offset = .ok (.ofEntries es f limit offset) := by
  obtain ⟨hfrom, hto, ⟨hlimit, -⟩, hoffset, -⟩ := ordinary
  have haware : f.IsAware :=
    ⟨fun t ht => (hfrom t ht).isSome_offset, fun t ht => (hto t ht).isSome_offset⟩
  rw [query_eq (fun e he => (h e (values_ofEntries es ▸ he)).createdAt.isSome_offset) haware,
    values_ofEntries, Position.slice_of_nonneg _ hoffset hlimit]
  rfl

theorem countSince_eq (aware : ∀ e ∈ es, e.createdAt.offset.isSome = true) {t : Moment}
    (ht : t.offset.isSome = true) :
    countSince es t = .ok (es.countP fun e => t.instant ≤ e.createdAt.instant) := by
  have hrecent : (es.filterM fun e => do pure (!(← e.createdAt.before t)) : Except Fault _) =
      .ok (es.filter fun e => t.instant ≤ e.createdAt.instant) :=
    Outcome.filterM_eq_ok fun e he => Moment.notBefore_eq (aware e he) ht
  rw [countSince, hrecent, List.countP_eq_length_filter]
  rfl

/-- The destinations of entries that have a name. -/
def namedDestinations (es : List LogEntry) : List String :=
  (es.filterMap (·.destination)).filter fun d => !d.isEmpty

/-- Counts are given if the moments that they compare have offsets and the calendar has a day before. -/
theorem stats_eq {l : MemoryLog} (aware : ∀ e ∈ l.values, e.createdAt.offset.isSome = true)
    {now : Moment} (hnow : now.offset.isSome = true)
    (hday : l.values = [] ∨ ∃ before, now.plus (-Moment.dayMicros) = .ok before) :
    l.stats now = .ok { LogStats.ofEntries l.values now with
      byDestination := LogStats.tally (namedDestinations l.values) } := by
  have htoday : countSince l.values now.startOfDay =
      .ok (l.values.countP fun e => now.startOfDay.instant ≤ e.createdAt.instant) :=
    countSince_eq aware hnow
  refine Outcome.bind_eq_ok_iff.mpr ⟨_, htoday, ?_⟩
  cases hvalues : l.values with
  | nil => rfl
  | cons e rest =>
    obtain ⟨before, hbefore⟩ := hday.resolve_left (by rw [hvalues]; exact List.cons_ne_nil _ _)
    obtain ⟨haware, hinstant⟩ := Moment.plus_eq_ok hbefore
    rw [hvalues] at aware
    refine Outcome.bind_eq_ok_iff.mpr ⟨_, hbefore, Outcome.bind_eq_ok_iff.mpr
      ⟨_, countSince_eq aware (haware.trans hnow), ?_⟩⟩
    rw [hinstant, ← Int.sub_eq_add_neg]
    rfl

theorem stats_ofEntries (h : ∀ e ∈ es, e.IsOrdinary) {now : Moment} (hnow : now.IsOrdinary) :
    (ofEntries es).stats now = .ok (.ofEntries es now) := by
  obtain ⟨before, hbefore, -⟩ := hnow.exists_dayBefore
  have hnamed : namedDestinations es = es.filterMap (·.destination) := by
    refine List.filter_eq_self.mpr fun d hd => ?_
    obtain ⟨e, he, hdest⟩ := List.mem_filterMap.mp hd
    have hne : d ≠ "" := by
      rintro rfl
      exact (h e he).destination hdest
    simpa [String.isEmpty_iff] using hne
  rw [stats_eq (fun e he => (h e (values_ofEntries es ▸ he)).createdAt.isSome_offset)
    hnow.isSome_offset (.inr ⟨before, hbefore⟩), values_ofEntries, hnamed]
  rfl

theorem purge_ofEntries (ids : (es.map (·.id)).Nodup) (h : ∀ e ∈ es, e.IsOrdinary) {now : Moment}
    (hnow : now.IsOrdinary) : (ofEntries es).purge now =
      .ok (es.countP (LogEntry.isOver now), ofEntries (es.filter fun e => !e.isOver now)) := by
  have hexpired : (ofEntries es).values.filterM (isExpired now) =
      .ok (es.filter (LogEntry.isOver now)) := by
    rw [values_ofEntries]
    refine Outcome.filterM_eq_ok fun e he => ?_
    unfold isExpired LogEntry.isOver
    cases ht : e.expiresAt with
    | none => rfl
    | some t =>
      exact Moment.notBefore_eq hnow.isSome_offset ((h e he).expiresAt t ht).isSome_offset
  have hleft : (es.filter (LogEntry.isOver now)).foldl (fun m e => m.erase e.id)
      (ofEntries es).entries = (ofEntries (es.filter fun e => !e.isOver now)).entries := by
    have hfold := Keyed.foldl_erase (keys_ofEntries es ▸ ids)
      ((es.filter (LogEntry.isOver now)).map (·.id))
    rw [List.foldl_map] at hfold
    rw [hfold]
    simp only [ofEntries, List.filter_map]
    refine congrArg _ (List.filter_congr fun e he => ?_)
    -- an entry is the only one of its id
    have hover : e.id ∈ (es.filter (LogEntry.isOver now)).map (·.id) ↔ e.isOver now = true := by
      constructor
      · intro hmem
        obtain ⟨e', he', hid⟩ := List.mem_map.mp hmem
        obtain ⟨hmem', hover⟩ := List.mem_filter.mp he'
        exact List.inj_on_of_nodup_map ids hmem' he hid ▸ hover
      · exact fun hover => List.mem_map.mpr ⟨e, List.mem_filter.mpr ⟨he, hover⟩, rfl⟩
    simp only [Function.comp_apply, hover]
    cases e.isOver now <;> rfl
  refine Outcome.bind_eq_ok_iff.mpr ⟨_, hexpired, ?_⟩
  rw [hleft, List.countP_eq_length_filter]
  rfl

/-! ### The newest first -/

theorem pairwise_newestFirst (es : List LogEntry) :
    (newestFirst es).Pairwise fun a b => b.createdAt.instant ≤ a.createdAt.instant := by
  have hsorted : (newestFirst es).Pairwise
      fun a b => decide (b.createdAt.instant ≤ a.createdAt.instant) = true :=
    List.pairwise_mergeSort
      (fun a b c hab hbc => by
        rw [decide_eq_true_eq] at hab hbc ⊢
        exact Int.le_trans hbc hab)
      (fun a b => by
        rw [Bool.or_eq_true, decide_eq_true_eq, decide_eq_true_eq]
        exact Int.le_total _ _) es
  exact hsorted.imp fun h => of_decide_eq_true h

/-- Entries of different moments are in one order, whatever order they come in. -/
theorem newestFirst_reverse (h : IsLog es) : newestFirst es.reverse = newestFirst es := by
  have hperm : (newestFirst es.reverse).Perm es :=
    (List.mergeSort_perm _ _).trans (List.reverse_perm es)
  have hperm' : (newestFirst es).Perm es := List.mergeSort_perm _ _
  refine List.Perm.eq_of_pairwise (fun a b ha hb hab hba => ?_) (pairwise_newestFirst _)
    (pairwise_newestFirst _) (hperm.trans hperm'.symm)
  have ha := hperm.mem_iff.mp ha
  have hb := hperm'.mem_iff.mp hb
  by_cases hid : a.id = b.id
  · exact List.inj_on_of_nodup_map h.ids ha hb hid
  · exact absurd (Int.le_antisymm hba hab) (h.moments a ha b hb hid)

end MemoryLog

/-! ## In a table -/

namespace TableLog

theorem find?_ofEntries (es : List LogEntry) (id : String) :
    (ofEntries es).find? id = (es.find? fun e => e.id = id).map LogEntry.row := by
  rw [find?, ofEntries, List.find?_map]
  rfl

theorem append_ofEntries {e : LogEntry} (he : e.IsOrdinary) (new : e.id ∉ es.map (·.id)) :
    (ofEntries es).append e = .ok (ofEntries (es ++ [e])) := by
  have habsent : (es.find? fun old => old.id = e.id) = none := by
    rw [List.find?_eq_none]
    intro old hold hid
    refine new ?_
    rw [← of_decide_eq_true hid]
    exact List.mem_map_of_mem hold
  refine Outcome.bind_eq_ok_iff.mpr ⟨_, LogRow.ofEntry_eq he, ?_⟩
  rw [find?_ofEntries, habsent]
  simp [ofEntries]
  rfl

theorem update_ofEntries {e : LogEntry} (he : e.IsOrdinary) :
    (ofEntries es).update e =
      .ok (ofEntries (es.map fun old => if old.id = e.id then e else old)) := by
  refine Outcome.bind_eq_ok_iff.mpr ⟨_, LogRow.ofEntry_eq he, ?_⟩
  simp only [ofEntries, List.map_map]
  refine congrArg (fun rows => Except.ok (TableLog.mk rows)) (List.map_congr_left fun old _ => ?_)
  show (if old.id = e.id then e.row else old.row) = LogEntry.row (if old.id = e.id then e else old)
  split <;> rfl

theorem delete_ofEntries (es : List LogEntry) (id : String) :
    (ofEntries es).delete id = ofEntries (es.filter fun e => e.id ≠ id) := by
  rw [delete, ofEntries, ofEntries, List.filter_map]
  rfl

theorem get_ofEntries (h : ∀ e ∈ es, e.IsOrdinary) (id : String) :
    (ofEntries es).get id = .ok ((es.find? fun e => e.id = id).map LogEntry.universal) := by
  rw [get, find?_ofEntries]
  cases hfind : es.find? fun e => e.id = id with
  | none => rfl
  | some e =>
    have hrow := LogRow.toEntry_row (h e (List.mem_of_find?_eq_some hfind))
    show some <$> e.row.toEntry = _
    rw [hrow]
    rfl

theorem admits_row {f : LogFilter} {e : LogEntry} (he : e.createdAt.FitsColumn)
    (hfrom : ∀ t, f.dateFrom = some t → t.FitsColumn)
    (hto : ∀ t, f.dateTo = some t → t.FitsColumn) :
    admits f (f.dateFrom.map Moment.column) (f.dateTo.map Moment.column) e.row = f.covers e := by
  unfold admits LogFilter.covers LogFilter.admitsTexts
  refine congrArg₂ and (congrArg₂ and rfl ?_) ?_
  · cases hf : f.dateFrom with
    | none => rfl
    | some t => exact decide_eq_decide.mpr (Moment.column_le_iff (hfrom t hf) he)
  · cases hf : f.dateTo with
    | none => rfl
    | some t => exact decide_eq_decide.mpr (Moment.column_le_iff he (hto t hf))

/-- The table sorts from the other end, which shows only in entries of one moment. -/
theorem newestFirst_rows (h : ∀ e ∈ es, e.createdAt.FitsColumn) :
    newestFirst (es.map LogEntry.row) =
      (MemoryLog.newestFirst es.reverse).map LogEntry.row := by
  rw [newestFirst, ← List.map_reverse]
  symm
  refine List.map_mergeSort fun a ha b hb => decide_eq_decide.mpr ?_
  exact (Moment.column_le_iff (h b (List.mem_reverse.mp hb)) (h a (List.mem_reverse.mp ha))).symm

theorem newestFirst_map (h : IsLog es) :
    newestFirst (es.map LogEntry.row) = (MemoryLog.newestFirst es).map LogEntry.row := by
  rw [newestFirst_rows fun e he => (h.ordinary e he).fits.createdAt,
    MemoryLog.newestFirst_reverse h]

/-- A query serves the rows of the entries that the filter covers. -/
theorem query_of_fits (h : ∀ e ∈ es, e.createdAt.FitsColumn) {f : LogFilter}
    (hfrom : ∀ t, f.dateFrom = some t → t.FitsColumn)
    (hto : ∀ t, f.dateTo = some t → t.FitsColumn) {limit offset : Int}
    (hlimit : fitsColumn limit = true) (hoffset : fitsColumn offset = true) :
    (ofEntries es).query f limit offset = (do
      let items ← (page (newestFirst ((es.filter f.covers).map LogEntry.row)) limit offset).mapM
        LogRow.toEntry
      pure { items, total := (es.filter f.covers).length, limit, offset }) := by
  have hdateFrom := LogRow.optionalColumn_eq fun t ht => Moment.columnText_eq (hfrom t ht)
  have hdateTo := LogRow.optionalColumn_eq fun t ht => Moment.columnText_eq (hto t ht)
  have hfound : (ofEntries es).rows.filter
      (admits f (f.dateFrom.map Moment.column) (f.dateTo.map Moment.column)) =
        (es.filter f.covers).map LogEntry.row := by
    rw [ofEntries, List.filter_map]
    exact congrArg _ (List.filter_congr fun e he => admits_row (h e he) hfrom hto)
  rw [query, hdateFrom, hdateTo]
  show (if (!fitsColumn limit || !fitsColumn offset) = true then _ else _) = _
  rw [hfound, hlimit, hoffset, List.length_map]
  rfl

theorem query_ofEntries (h : IsLog es) {f : LogFilter} {limit offset : Int}
    (ordinary : (LogRequest.query f limit offset).IsOrdinary) :
    (ofEntries es).query f limit offset =
      .ok (LogPage.ofEntries es f limit offset).universal := by
  obtain ⟨hfrom, hto, ⟨hlimit, hlimit'⟩, hoffset, hoffset'⟩ := ordinary
  have hitems : (page (newestFirst ((es.filter f.covers).map LogEntry.row)) limit offset).mapM
      LogRow.toEntry = .ok ((((MemoryLog.newestFirst (es.filter f.covers)).drop
        offset.toNat).take limit.toNat).map LogEntry.universal) := by
    rw [newestFirst_map (h.filter _), page, if_neg (Int.not_lt.mpr hlimit), ← List.map_drop,
      ← List.map_take, List.mapM_map]
    refine Outcome.mapM_eq_ok_map fun e he => LogRow.toEntry_row (h.ordinary e ?_)
    have hmem := List.mem_of_mem_drop (List.mem_of_mem_take he)
    exact (List.mem_filter.mp ((List.mergeSort_perm _ _).mem_iff.mp hmem)).1
  rw [query_of_fits (fun e he => (h.ordinary e he).fits.createdAt) (fun t ht => (hfrom t ht).fits)
    (fun t ht => (hto t ht).fits) (LogRow.fitsColumn_of_lt hlimit hlimit')
    (LogRow.fitsColumn_of_lt hoffset hoffset'), hitems]
  rfl

theorem countSince_ofEntries (h : ∀ e ∈ es, e.IsOrdinary) {t : Moment} (ht : t.FitsColumn) :
    (ofEntries es).countSince t.column = es.countP fun e => t.instant ≤ e.createdAt.instant := by
  rw [countSince, ofEntries, List.countP_map]
  refine List.countP_congr fun e he => ?_
  rw [Function.comp_apply, decide_eq_true_eq, decide_eq_true_eq]
  exact Moment.column_le_iff ht (h e he).createdAt.fits

theorem countStatus_ofEntries (es : List LogEntry) (s : LogStatus) :
    (ofEntries es).countStatus s = MemoryLog.countStatus es s := by
  rw [countStatus, ofEntries, List.countP_map]
  rfl

theorem stats_ofEntries (h : ∀ e ∈ es, e.IsOrdinary) {now : Moment} (hnow : now.IsOrdinary) :
    (ofEntries es).stats now = .ok (.ofEntries es now) := by
  obtain ⟨before, hbefore, hfits, -, hinstant⟩ := hnow.exists_dayBefore
  refine Outcome.bind_eq_ok_iff.mpr ⟨_, Moment.columnText_eq hnow.startOfDay_fits,
    Outcome.bind_eq_ok_iff.mpr ⟨_, hbefore,
      Outcome.bind_eq_ok_iff.mpr ⟨_, Moment.columnText_eq hfits, ?_⟩⟩⟩
  rw [countSince_ofEntries h hnow.startOfDay_fits, countSince_ofEntries h hfits, hinstant]
  simp only [countStatus_ofEntries]
  simp only [LogStats.ofEntries, ofEntries, List.length_map, List.map_map, List.filterMap_map]
  rfl

/-- Rows are counted and sorted out as the entries are that they hold. -/
theorem split_ofEntries {expired : LogRow → Bool} {isOver : LogEntry → Bool}
    (h : ∀ e ∈ es, expired e.row = isOver e) :
    ((ofEntries es).rows.countP expired,
      TableLog.mk ((ofEntries es).rows.filter fun r => !expired r)) =
      (es.countP isOver, ofEntries (es.filter fun e => !isOver e)) := by
  have hcount : (ofEntries es).rows.countP expired = es.countP isOver := by
    rw [ofEntries, List.countP_map]
    exact List.countP_congr fun e he => by rw [Function.comp_apply, h e he]
  have hleft : (ofEntries es).rows.filter (fun r => !expired r) =
      (es.filter fun e => !isOver e).map LogEntry.row := by
    rw [ofEntries, List.filter_map]
    exact congrArg _ (List.filter_congr fun e he => by rw [Function.comp_apply, h e he])
  rw [hcount, hleft, ofEntries]

theorem purge_ofEntries (h : ∀ e ∈ es, e.FitsColumns) {now : Moment} (hnow : now.FitsColumn) :
    (ofEntries es).purge now =
      .ok (es.countP (LogEntry.isOver now), ofEntries (es.filter fun e => !e.isOver now)) := by
  refine Outcome.bind_eq_ok_iff.mpr ⟨_, Moment.columnText_eq hnow, ?_⟩
  refine congrArg Except.ok (split_ofEntries fun e he => ?_)
  dsimp only [LogEntry.row, LogEntry.isOver]
  cases ht : e.expiresAt with
  | none => rfl
  | some t =>
    exact decide_eq_decide.mpr (Moment.column_le_iff ((h e he).expiresAt t ht) hnow)

end TableLog

end Conveyor
