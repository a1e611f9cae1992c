import Conveyor.Proofs.Log.Serving

/-!
# Queries of the log in memory

Whatever a log in memory has served, its entries are under their own ids, and no id has two
(`Reached.isKept`). The pages of a query laid end to end are all entries that fulfil the criteria, each once
and the newest first, in whatever order they came and however many of them are of one moment. Counts are made
in ways of their own, but the counts over a log are those of its queries (`LogStats.AgreesWith`), and there
are counts at every time that has a day before it (`pages_and_counts`).
-/

namespace Conveyor

/-! ## Dates that are asked for -/

namespace LogFilter

theorem isAware_of_dateless {f : LogFilter} (hfrom : f.dateFrom = none) (hto : f.dateTo = none) :
    f.IsAware := by
  constructor
  · intro t ht
    rw [hfrom] at ht
    cases ht
  · intro t ht
    rw [hto] at ht
    cases ht

end LogFilter

namespace MemoryLog

variable {l l' : MemoryLog} {request : LogRequest} {reply : LogReply}

/-! ## What a log holds -/

/-- A log after any requests that it served. -/
inductive Reached : MemoryLog → Prop where
  | new : Reached {}
  | served {l l' : MemoryLog} {request : LogRequest} {reply : LogReply} (before : Reached l)
      (answered : LogRepository.serve (.memory l) request = .ok (reply, .memory l')) : Reached l'

/-- Entries are under their own ids, and no id has two. -/
structure IsKept (l : MemoryLog) : Prop where
  once : l.entries.keys.Nodup
  own : ∀ p ∈ l.entries, p.2.id = p.1

namespace IsKept

theorem new : IsKept {} := ⟨List.nodup_nil, List.forall_mem_nil _⟩

theorem append (h : l.IsKept) (e : LogEntry) : (l.append e).IsKept where
  once := Keyed.nodup_keys_put _ _ h.once
  own p hp := by
    rcases Keyed.mem_of_mem_put hp with rfl | hold
    · rfl
    · exact h.own p hold

theorem update (h : l.IsKept) (e : LogEntry) : (l.update e).IsKept := by
  unfold MemoryLog.update
  split
  · exact h.append e
  · exact h

theorem delete (h : l.IsKept) (id : String) : (l.delete id).IsKept where
  once := Keyed.nodup_keys_erase _ h.once
  own p hp := h.own p (Keyed.mem_of_mem_erase hp)

theorem purge (h : l.IsKept) {now : Moment} {n : Nat} (hpurge : l.purge now = .ok (n, l')) :
    l'.IsKept := by
  obtain ⟨expired, -, heq⟩ := Outcome.bind_eq_ok_iff.mp hpurge
  cases heq
  have herase : ∀ (gone : List LogEntry) (m : Keyed LogEntry), IsKept ⟨m⟩ →
      IsKept ⟨gone.foldl (fun m e => m.erase e.id) m⟩ := by
    intro gone
    induction gone with
    | nil => exact fun m hm => hm
    | cons e gone ih => exact fun m hm => ih _ (hm.delete e.id)
  exact herase expired l.entries h

/-- A request that is served leaves a log as orderly as it was. -/
theorem served (h : l.IsKept)
    (answered : LogRepository.serve (.memory l) request = .ok (reply, .memory l')) : l'.IsKept := by
  cases request with
  | append e =>
    cases answered
    exact h.append e
  | update e =>
    cases answered
    exact h.update e
  | delete id =>
    cases answered
    exact h.delete id
  | get id =>
    cases answered
    exact h
  | query f limit offset =>
    obtain ⟨page, -, heq⟩ := Outcome.map_eq_ok_iff.mp answered
    cases heq
    exact h
  | stats now =>
    obtain ⟨counts, -, heq⟩ := Outcome.map_eq_ok_iff.mp answered
    cases heq
    exact h
  | purge now =>
    obtain ⟨⟨n, r⟩, hpurge, heq⟩ := Outcome.map_eq_ok_iff.mp answered
    cases heq
    obtain ⟨⟨m, left⟩, hleft, heq⟩ := Outcome.map_eq_ok_iff.mp hpurge
    cases heq
    exact h.purge hleft

theorem nodup_ids (h : l.IsKept) : (l.values.map (·.id)).Nodup := by
  have hids : l.values.map (·.id) = l.entries.keys := by
    rw [values, Keyed.keys, List.map_map]
    exact List.map_congr_left h.own
  rw [hids]
  exact h.once

end IsKept

/-- By induction on the requests. -/
theorem Reached.isKept (h : l.Reached) : l.IsKept := by
  induction h with
  | new => exact .new
  | served _ answered ih => exact ih.served answered

/-! ## Pages -/

section Pages

variable (aware : ∀ e ∈ l.values, e.createdAt.offset.isSome = true) {f : LogFilter} (hf : f.IsAware)

/-- The entries that fulfil the criteria, in the order in which queries show them. -/
def found (l : MemoryLog) (f : LogFilter) : List LogEntry := newestFirst (l.values.filter f.covers)

theorem found_perm (l : MemoryLog) (f : LogFilter) :
    (l.found f).Perm (l.values.filter f.covers) := List.mergeSort_perm _ _

/-- The page of a number, of pages of one length. -/
def page (l : MemoryLog) (f : LogFilter) (length number : Nat) : LogPage where
  items := ((l.found f).drop (number * length)).take length
  total := (l.values.filter f.covers).length
  limit := length
  offset := (number * length : Nat)

include aware hf in
theorem query_page (length number : Nat) :
    l.query f length (number * length : Nat) = .ok (l.page f length number) := by
  rw [query_eq aware hf, Position.slice_of_nonneg _ (Int.natCast_nonneg _) (Int.natCast_nonneg _),
    Int.toNat_natCast, Int.toNat_natCast]
  rfl

/-- Pages laid end to end are the start of what is found. -/
theorem flatMap_page (l : MemoryLog) (f : LogFilter) (length count : Nat) :
    (List.range count).flatMap (fun i => (l.page f length i).items) =
      (l.found f).take (count * length) := by
  induction count with
  | zero => simp
  | succ count ih =>
    rw [List.range_succ, List.flatMap_append, ih, List.flatMap_singleton, Nat.succ_mul,
      List.take_add]
    rfl

/-- As many pages as it takes are all that is found. -/
theorem flatMap_page_eq {length count : Nat}
    (enough : (l.values.filter f.covers).length ≤ count * length) :
    (List.range count).flatMap (fun i => (l.page f length i).items) = l.found f := by
  rw [flatMap_page]
  refine List.take_of_length_le ?_
  rw [(found_perm l f).length_eq]
  exact enough

theorem nodup_ids_found (h : l.IsKept) : ((l.found f).map (·.id)).Nodup := by
  have hids : ((l.values.filter f.covers).map (·.id)).Nodup :=
    h.nodup_ids.sublist (List.filter_sublist.map _)
  exact ((found_perm l f).map _).nodup_iff.mpr hids

end Pages

end MemoryLog


/-! ## Tallies -/

namespace LogStats

variable {names : List String} {name : String}

/-- A tally that goes on from another adds to it. -/
theorem get?_foldl_tally (names : List String) (m : Keyed Nat) (name : String) :
    Keyed.get? name (names.foldl (fun m n => m.put n ((m.get? n).getD 0 + 1)) m) =
      if name ∈ names then some ((Keyed.get? name m).getD 0 + names.count name)
      else Keyed.get? name m := by
  induction names generalizing m with
  | nil => simp
  | cons n rest ih =>
    rw [List.foldl_cons, ih]
    by_cases hn : n = name
    · subst hn
      rw [Keyed.get?_put_same, Option.getD_some, List.count_cons_self, if_pos List.mem_cons_self]
      by_cases hmem : n ∈ rest
      · rw [if_pos hmem]
        congr 1
        omega
      · rw [if_neg hmem, List.count_eq_zero_of_not_mem hmem]
    · rw [Keyed.get?_put_other _ _ (Ne.symm hn), List.count_cons_of_ne hn]
      simp [Ne.symm hn]

theorem get?_tally (names : List String) (name : String) :
    (tally names).get? name = if name ∈ names then some (names.count name) else none := by
  rw [tally, get?_foldl_tally]
  simp [Keyed.get?]

theorem mem_keys_tally : name ∈ (tally names).keys ↔ name ∈ names := by
  rw [← not_iff_not, ← Keyed.get?_eq_none_iff, get?_tally]
  simp

theorem count_of_get?_tally {n : Nat} (h : (tally names).get? name = some n) :
    n = names.count name := by
  rw [get?_tally] at h
  split at h
  · exact (Option.some.inj h).symm
  · cases h

theorem nodup_keys_tally (names : List String) : (tally names).keys.Nodup := by
  have hfold : ∀ (names : List String) (m : Keyed Nat), m.keys.Nodup →
      (names.foldl (fun m n => m.put n ((m.get? n).getD 0 + 1)) m).keys.Nodup := by
    intro names
    induction names with
    | nil => exact fun m hm => hm
    | cons n rest ih => exact fun m hm => ih _ (Keyed.nodup_keys_put _ _ hm)
  exact hfold names [] List.nodup_nil

end LogStats

/-! ## Totals of queries -/

namespace MemoryLog

variable {l : MemoryLog} {now : Moment}

/-- Every query by the filter, whichever part of the entries it asks for, has the total. -/
def Totals (l : MemoryLog) (f : LogFilter) (n : Nat) : Prop :=
  ∀ limit offset : Int, ∃ page, l.query f limit offset = .ok page ∧ page.total = n

section Totals

variable (aware : ∀ e ∈ l.values, e.createdAt.offset.isSome = true)
include aware

theorem totals_countP {f : LogFilter} (hf : f.IsAware) : l.Totals f (l.values.countP f.covers) :=
  fun limit offset => ⟨_, query_eq aware hf limit offset, List.countP_eq_length_filter.symm⟩

/-- What entries are counted by is what the filter asks for. -/
theorem totals_of_covers {f : LogFilter} (hf : f.IsAware) {p : LogEntry → Bool}
    (h : ∀ e, f.covers e = true ↔ p e = true) : l.Totals f (l.values.countP p) := by
  have hsame : l.values.countP f.covers = l.values.countP p := List.countP_congr fun e _ => h e
  rw [← hsame]
  exact totals_countP aware hf

theorem totals_all : l.Totals {} l.values.length := by
  have hall := totals_of_covers aware (f := {}) (p := fun _ => true)
    (LogFilter.isAware_of_dateless rfl rfl) fun e => by
      simp [LogFilter.covers, LogFilter.admitsTexts, LogFilter.admitsText]
  rwa [List.countP_true] at hall

theorem totals_status (status : LogStatus) :
    l.Totals { status := some status } (countStatus l.values status) :=
  totals_of_covers aware (LogFilter.isAware_of_dateless rfl rfl) fun e => by
    simp [LogFilter.covers, LogFilter.admitsTexts, LogFilter.admitsText]

theorem totals_source {name : String} (hname : name ≠ "") :
    l.Totals { source := some name } ((l.values.map (·.source)).count name) := by
  have hgiven : name.isEmpty = false := by simpa [String.isEmpty_iff] using hname
  rw [List.count_eq_countP, List.countP_map]
  refine totals_of_covers aware (LogFilter.isAware_of_dateless rfl rfl) fun e => ?_
  simp [LogFilter.covers, LogFilter.admitsTexts, LogFilter.admitsText, hgiven]

theorem totals_destination {name : String} (hname : name ≠ "") :
    l.Totals { destination := some name } ((namedDestinations l.values).count name) := by
  have hgiven : name.isEmpty = false := by simpa [String.isEmpty_iff] using hname
  rw [namedDestinations, List.count_filter (by rw [hgiven]; rfl), List.count_filterMap]
  refine totals_of_covers aware (LogFilter.isAware_of_dateless rfl rfl) fun e => ?_
  simp [LogFilter.covers, LogFilter.admitsTexts, LogFilter.admitsText, hgiven]

theorem totals_since {t : Moment} (ht : t.offset.isSome = true) :
    l.Totals { dateFrom := some t }
      (l.values.countP fun e => t.instant ≤ e.createdAt.instant) := by
  refine totals_of_covers aware ⟨?_, by simp⟩ fun e => ?_
  · rintro _ ⟨⟩
    exact ht
  · simp [LogFilter.covers, LogFilter.admitsTexts, LogFilter.admitsText]

end Totals

/-- A named destination is one of an entry. -/
theorem mem_namedDestinations {es : List LogEntry} {name : String} :
    name ∈ namedDestinations es ↔ name ≠ "" ∧ ∃ e ∈ es, e.destination = some name := by
  rw [namedDestinations, List.mem_filter, List.mem_filterMap, and_comm]
  simp

/-- The day begins after the same time of the day before. -/
theorem dayBefore_le_startOfDay (now : Moment) :
    now.instant - Moment.dayMicros ≤ now.startOfDay.instant := by
  have htime := now.timeOfDay_lt
  unfold Moment.startOfDay Moment.instant Moment.dayMicros
  dsimp only
  omega

end MemoryLog

/-- The counts over a log at a time are the totals of its queries. -/
structure LogStats.AgreesWith (s : LogStats) (l : MemoryLog) (now : Moment) : Prop where
  total : l.Totals {} s.total
  success : l.Totals { status := some .success } s.success
  failed : l.Totals { status := some .failed } s.failed
  retry : l.Totals { status := some .retry } s.retry
  dropped : l.Totals { status := some .dropped } s.dropped
  sources : s.bySource.keys.Nodup ∧
    ∀ name, name ∈ s.bySource.keys ↔ ∃ e ∈ l.values, e.source = name
  bySource : ∀ name n, s.bySource.get? name = some n → name ≠ "" →
    l.Totals { source := some name } n
  destinations : s.byDestination.keys.Nodup ∧
    ∀ name, name ∈ s.byDestination.keys ↔
      name ≠ "" ∧ ∃ e ∈ l.values, e.destination = some name
  byDestination : ∀ name n, s.byDestination.get? name = some n →
    l.Totals { destination := some name } n
  today : l.Totals { dateFrom := some now.startOfDay } s.today
  lastDay : ∀ before, now.plus (-Moment.dayMicros) = .ok before →
    l.Totals { dateFrom := some before } s.lastDay
  today_le : s.today ≤ s.lastDay
  lastDay_le : s.lastDay ≤ s.total

namespace MemoryLog

variable {l : MemoryLog} {now : Moment}

theorem agreesWith_ofEntries (aware : ∀ e ∈ l.values, e.createdAt.offset.isSome = true)
    (hnow : now.offset.isSome = true) :
    LogStats.AgreesWith { LogStats.ofEntries l.values now with
      byDestination := LogStats.tally (namedDestinations l.values) } l now where
  total := totals_all aware
  success := totals_status aware .success
  failed := totals_status aware .failed
  retry := totals_status aware .retry
  dropped := totals_status aware .dropped
  sources := ⟨LogStats.nodup_keys_tally _, fun name =>
    LogStats.mem_keys_tally.trans List.mem_map⟩
  bySource name n h hname := by
    rw [LogStats.count_of_get?_tally h]
    exact totals_source aware hname
  destinations := ⟨LogStats.nodup_keys_tally _, fun name =>
    LogStats.mem_keys_tally.trans mem_namedDestinations⟩
  byDestination name n h := by
    have hkey : name ∈ (LogStats.tally (namedDestinations l.values)).keys := by
      by_contra hnot
      rw [← Keyed.get?_eq_none_iff, h] at hnot
      cases hnot
    rw [LogStats.count_of_get?_tally h]
    exact totals_destination aware (mem_namedDestinations.mp (LogStats.mem_keys_tally.mp hkey)).1
  today := totals_since aware hnow
  lastDay before hbefore := by
    obtain ⟨haware, hinstant⟩ := Moment.plus_eq_ok hbefore
    have hsince := totals_since aware (haware.trans hnow)
    rwa [hinstant, ← Int.sub_eq_add_neg] at hsince
  today_le := by
    refine List.countP_mono_left fun e _ he => ?_
    rw [decide_eq_true_eq] at he ⊢
    exact (dayBefore_le_startOfDay now).trans he
  lastDay_le := List.countP_le_length

/-- A time has no day before it if it is of the first day of the calendar. -/
theorem plus_dayBefore (hwall : Moment.inRange now.wall = true) :
    now.plus (-Moment.dayMicros) =
      if now.wall < Moment.dayMicros then .error .overflow
      else .ok { now with wall := now.wall + -Moment.dayMicros } := by
  simp only [Moment.inRange, Bool.and_eq_true, decide_eq_true_eq] at hwall
  have hday : 0 ≤ Moment.dayMicros := by decide
  unfold Moment.plus Moment.plus?
  by_cases hfirst : now.wall < Moment.dayMicros
  · have hrange : Moment.inRange (now.wall + -Moment.dayMicros) = false := by
      simp only [Moment.inRange, Bool.and_eq_false_iff, decide_eq_false_iff_not]
      omega
    rw [if_pos hfirst, hrange]
    rfl
  · have hrange : Moment.inRange (now.wall + -Moment.dayMicros) = true := by
      simp only [Moment.inRange, Bool.and_eq_true, decide_eq_true_eq]
      omega
    rw [if_neg hfirst, hrange]
    rfl

/-- Entries are not counted at a time that has no day before it. -/
theorem stats_eq_error (aware : ∀ e ∈ l.values, e.createdAt.offset.isSome = true)
    (hnow : now.offset.isSome = true) (hvalues : l.values ≠ [])
    (hday : now.plus (-Moment.dayMicros) = .error .overflow) :
    l.stats now = .error .overflow := by
  have htoday : countSince l.values now.startOfDay =
      .ok (l.values.countP fun e => now.startOfDay.instant ≤ e.createdAt.instant) :=
    countSince_eq aware hnow
  refine Outcome.bind_eq_error_iff.mpr (.inr ⟨_, htoday, ?_⟩)
  have hsome : l.values.isEmpty = false := by simpa using hvalues
  rw [hsome]
  exact Outcome.bind_eq_error_iff.mpr (.inl hday)

/-- An entry made so many hours after midnight of the first of June 2024. -/
def hourly (id : String) (hours : Int) : LogEntry :=
  let created : Moment :=
    ⟨(Calendar.Date.toDay ⟨2024, 6, 1⟩ : Int) * Moment.dayMicros + hours * Moment.hourMicros, some 0⟩
  { id, dataId := "d", source := "s", createdAt := created, updatedAt := created }

/-- A log that was given the entries one after the other. -/
def appended (es : List LogEntry) : MemoryLog := es.foldl append {}

theorem reached_appended (es : List LogEntry) : (appended es).Reached := by
  have hfold : ∀ (es : List LogEntry) (l : MemoryLog), l.Reached → (es.foldl append l).Reached := by
    intro es
    induction es with
    | nil => exact fun l hl => hl
    | cons e es ih =>
      intro l hl
      have answered : LogRepository.serve (.memory l) (.append e) =
          .ok (.done, .memory (l.append e)) := rfl
      exact ih _ (.served hl answered)
  exact hfold es {} .new

end MemoryLog
end Conveyor
