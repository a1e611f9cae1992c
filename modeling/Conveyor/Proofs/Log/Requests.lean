import Conveyor.Log.Repository
import Conveyor.Proofs.Json.RoundTrip
import Conveyor.Proofs.Moment.Column
import Conveyor.Proofs.Outcome

/-!
# Requests to a log

What is asked of a log, what it answers, and what a plain list of entries would answer in its place:
the measure for logs of every kind.
-/

/-!
## Entries as rows

An ordinary entry is written to a row, and the row is read back as the entry with all its moments in
universal time.
-/

namespace Conveyor

/-- The entry has what a row can hold and give back: moments of ordinary years, data that a document
can hold, a small count of retries, and no destination without a name. -/
structure LogEntry.IsOrdinary (e : LogEntry) : Prop where
  createdAt : e.createdAt.IsOrdinary
  updatedAt : e.updatedAt.IsOrdinary
  expiresAt : ∀ t, e.expiresAt = some t → t.IsOrdinary
  dataSent : e.dataSent.isLegible true = true
  dataReceived : e.dataReceived.isLegible true = true
  retryCount : (e.retryCount : Int) < integerColumnLimit
  destination : e.destination ≠ some ""

/-- All moments of the entry fit their columns. -/
structure LogEntry.FitsColumns (e : LogEntry) : Prop where
  createdAt : e.createdAt.FitsColumn
  updatedAt : e.updatedAt.FitsColumn
  expiresAt : ∀ t, e.expiresAt = some t → t.FitsColumn

theorem LogEntry.IsOrdinary.fits {e : LogEntry} (h : e.IsOrdinary) : e.FitsColumns :=
  ⟨h.createdAt.fits, h.updatedAt.fits, fun t ht => (h.expiresAt t ht).fits⟩

/-- The entry with its moments on the clock of universal time. -/
def LogEntry.universal (e : LogEntry) : LogEntry :=
  { e with
    createdAt := e.createdAt.toUniversal
    updatedAt := e.updatedAt.toUniversal
    expiresAt := e.expiresAt.map Moment.toUniversal }

/-- The row of an entry whose moments fit their columns. -/
def LogEntry.row (e : LogEntry) : LogRow where
  id := e.id
  dataId := e.dataId
  source := e.source
  destination := e.destination
  host := e.host
  dataSent := Json.write .plain e.dataSent
  dataReceived := Json.write .plain e.dataReceived
  message := e.message
  status := e.status
  retryCount := e.retryCount
  workflowId := e.workflowId
  pipelineId := e.pipelineId
  createdAt := e.createdAt.column
  updatedAt := e.updatedAt.column
  expiresAt := e.expiresAt.map Moment.column

namespace LogRow

variable {α β : Type} {e : LogEntry}

theorem optionalColumn_eq {f : α → Except Fault β} {g : α → β} {o : Option α}
    (h : ∀ a, o = some a → f a = .ok (g a)) : optionalColumn f o = .ok (o.map g) := by
  cases o with
  | none => rfl
  | some a =>
    rw [optionalColumn, h a rfl]
    rfl

theorem fitsColumn_of_lt {n : Int} (h : 0 ≤ n) (h' : n < integerColumnLimit) :
    fitsColumn n = true := by
  have hlimit : 0 ≤ integerColumnLimit := by decide
  simp only [fitsColumn, Bool.and_eq_true, decide_eq_true_eq]
  omega

theorem ofEntry_of_fits (h : e.FitsColumns) (hretries : (e.retryCount : Int) < integerColumnLimit) :
    ofEntry e = .ok e.row := by
  have hcreated := Moment.columnText_eq h.createdAt
  have hupdated := Moment.columnText_eq h.updatedAt
  have hexpires := optionalColumn_eq fun t ht => Moment.columnText_eq (h.expiresAt t ht)
  have hcount := fitsColumn_of_lt (Int.natCast_nonneg _) hretries
  refine Outcome.bind_eq_ok_iff.mpr ⟨_, hcreated, Outcome.bind_eq_ok_iff.mpr ⟨_, hupdated,
    Outcome.bind_eq_ok_iff.mpr ⟨_, hexpires, ?_⟩⟩⟩
  rw [hcount]
  rfl

theorem ofEntry_eq (h : e.IsOrdinary) : ofEntry e = .ok e.row :=
  ofEntry_of_fits h.fits h.retryCount

/-- What an entry is written to if its moments fit. -/
theorem eq_row {r : LogRow} (h : e.FitsColumns) (hr : ofEntry e = .ok r) : r = e.row := by
  have hexpires := optionalColumn_eq fun t ht => Moment.columnText_eq (h.expiresAt t ht)
  obtain ⟨created, hcreated, hr⟩ := Outcome.bind_eq_ok_iff.mp hr
  obtain ⟨updated, hupdated, hr⟩ := Outcome.bind_eq_ok_iff.mp hr
  obtain ⟨expires, hexpired, hr⟩ := Outcome.bind_eq_ok_iff.mp hr
  cases (Moment.columnText_eq h.createdAt).symm.trans hcreated
  cases (Moment.columnText_eq h.updatedAt).symm.trans hupdated
  cases hexpires.symm.trans hexpired
  split at hr
  · cases hr
  · cases hr
    rfl

/-- Data is read back from its column. -/
theorem dataOf_write {v : Value} (h : v.isLegible true = true) :
    dataOf (Json.write .plain v) = .ok v := by
  have hread : Json.read? (Json.write .plain v) = some v := Json.read?_ofList Json.plain_isRegular h
  rw [dataOf, hread]

theorem toEntry_row (h : e.IsOrdinary) : e.row.toEntry = .ok e.universal := by
  have hsent : dataOf e.row.dataSent = .ok e.dataSent := dataOf_write h.dataSent
  have hreceived : dataOf e.row.dataReceived = .ok e.dataReceived := dataOf_write h.dataReceived
  have hcreated : Moment.ofColumnText e.row.createdAt = .ok e.createdAt.toUniversal :=
    Moment.ofColumnText_column h.createdAt.fits
  have hupdated : Moment.ofColumnText e.row.updatedAt = .ok e.updatedAt.toUniversal :=
    Moment.ofColumnText_column h.updatedAt.fits
  have hexpires : optionalColumn Moment.ofColumnText e.row.expiresAt =
      .ok (e.expiresAt.map Moment.toUniversal) := by
    show optionalColumn _ (e.expiresAt.map Moment.column) = _
    cases ht : e.expiresAt with
    | none => rfl
    | some t =>
      rw [Option.map_some, optionalColumn, Moment.ofColumnText_column (h.expiresAt t ht).fits]
      rfl
  rw [toEntry, hsent, hreceived, hcreated, hupdated, hexpires]
  rfl

end LogRow

/-! ## Requests -/

/-- What is asked of a log. -/
inductive LogRequest where
  | append (e : LogEntry)
  | update (e : LogEntry)
  | delete (id : String)
  | get (id : String)
  | query (f : LogFilter) (limit offset : Int)
  | stats (now : Moment)
  | purge (now : Moment)

/-- What a log answers. -/
inductive LogReply where
  | done
  | entry (e : Option LogEntry)
  | page (p : LogPage)
  | stats (s : LogStats)
  | purged (count : Nat)

def LogPage.universal (p : LogPage) : LogPage :=
  { p with items := p.items.map LogEntry.universal }

/-- The answer with all moments of its entries on the clock of universal time. -/
def LogReply.universal : LogReply → LogReply
  | .entry e => .entry (e.map LogEntry.universal)
  | .page p => .page p.universal
  | r => r

namespace LogRepository

/-- Carry out a request. -/
def serve (r : LogRepository) : LogRequest → Except Fault (LogReply × LogRepository)
  | .append e => (fun r => (.done, r)) <$> r.append e
  | .update e => (fun r => (.done, r)) <$> r.update e
  | .delete id => .ok (.done, r.delete id)
  | .get id => (fun e => (.entry e, r)) <$> r.get id
  | .query f limit offset => (fun p => (.page p, r)) <$> r.query f limit offset
  | .stats now => (fun s => (.stats s, r)) <$> r.stats now
  | .purge now => (fun (n, r) => (.purged n, r)) <$> r.purge now

/-- The answers to requests one after the other. A request that fails changes nothing. -/
def answers (r : LogRepository) : List LogRequest → List (Except Fault LogReply)
  | [] => []
  | request :: requests =>
    match r.serve request with
    | .ok (reply, r) => .ok reply :: r.answers requests
    | .error f => .error f :: r.answers requests

end LogRepository

namespace LogFilter

/-- The dates that are asked for have offsets, as those of every filter that is read. -/
structure IsAware (f : LogFilter) : Prop where
  dateFrom : ∀ t, f.dateFrom = some t → t.offset.isSome = true
  dateTo : ∀ t, f.dateTo = some t → t.offset.isSome = true

/-- Whether an entry fulfils all criteria, the dates compared as points in time. -/
def covers (f : LogFilter) (e : LogEntry) : Bool :=
  f.admitsTexts e && f.dateFrom.all (fun t => t.instant ≤ e.createdAt.instant) &&
    f.dateTo.all (fun t => e.createdAt.instant ≤ t.instant)

end LogFilter

/-- Whether the time of an entry is over. -/
def LogEntry.isOver (now : Moment) (e : LogEntry) : Bool :=
  e.expiresAt.any fun t => t.instant ≤ now.instant

/-- The part of a list of entries that is asked for. -/
def LogPage.ofEntries (es : List LogEntry) (f : LogFilter) (limit offset : Int) : LogPage where
  items := ((MemoryLog.newestFirst (es.filter f.covers)).drop offset.toNat).take limit.toNat
  total := (es.filter f.covers).length
  limit := limit
  offset := offset

/-- Counts over a list of entries. -/
def LogStats.ofEntries (es : List LogEntry) (now : Moment) : LogStats where
  total := es.length
  success := MemoryLog.countStatus es .success
  failed := MemoryLog.countStatus es .failed
  retry := MemoryLog.countStatus es .retry
  dropped := MemoryLog.countStatus es .dropped
  today := es.countP fun e => now.startOfDay.instant ≤ e.createdAt.instant
  lastDay := es.countP fun e => now.instant - Moment.dayMicros ≤ e.createdAt.instant
  bySource := LogStats.tally (es.map (·.source))
  byDestination := LogStats.tally (es.filterMap (·.destination))

namespace LogRequest

/-- What a list of entries answers. -/
def reply (es : List LogEntry) : LogRequest → LogReply
  | .append _ | .update _ | .delete _ => .done
  | .get id => .entry (es.find? fun e => e.id = id)
  | .query f limit offset => .page (.ofEntries es f limit offset)
  | .stats now => .stats (.ofEntries es now)
  | .purge now => .purged (es.countP (LogEntry.isOver now))

/-- What becomes of a list of entries. -/
def after (es : List LogEntry) : LogRequest → List LogEntry
  | .append e => es ++ [e]
  | .update e => es.map fun old => if old.id = e.id then e else old
  | .delete id => es.filter fun e => e.id ≠ id
  | .purge now => es.filter fun e => !e.isOver now
  | .get _ | .query .. | .stats _ => es

/-- What a list of entries answers to requests one after the other. -/
def replies (es : List LogEntry) : List LogRequest → List LogReply
  | [] => []
  | request :: requests => request.reply es :: replies (request.after es) requests

/-- The entry that a request brings. -/
def entry? : LogRequest → Option LogEntry
  | .append e | .update e => some e
  | _ => none

/-- The id under which a request puts a new entry. -/
def appendedId? : LogRequest → Option String
  | .append e => some e.id
  | _ => none

/-- The request asks nothing of a log that a column could not hold. -/
def IsOrdinary : LogRequest → Prop
  | .append e | .update e => e.IsOrdinary
  | .delete _ | .get _ => True
  | .query f limit offset =>
    (∀ t, f.dateFrom = some t → t.IsOrdinary) ∧ (∀ t, f.dateTo = some t → t.IsOrdinary) ∧
      (0 ≤ limit ∧ limit < integerColumnLimit) ∧ 0 ≤ offset ∧ offset < integerColumnLimit
  | .stats now | .purge now => now.IsOrdinary

end LogRequest

/-! ## Lists of entries -/

/-- The ids of entries are different, and so are the moments at which they were made. -/
structure IsLog (es : List LogEntry) : Prop where
  ids : (es.map (·.id)).Nodup
  ordinary : ∀ e ∈ es, e.IsOrdinary
  moments : ∀ e ∈ es, ∀ e' ∈ es, e.id ≠ e'.id → e.createdAt.instant ≠ e'.createdAt.instant

theorem IsLog.filter {es : List LogEntry} (h : IsLog es) (p : LogEntry → Bool) :
    IsLog (es.filter p) where
  ids := h.ids.sublist (List.filter_sublist.map _)
  ordinary e he := h.ordinary e (List.mem_filter.mp he).1
  moments e he e' he' := h.moments e (List.mem_filter.mp he).1 e' (List.mem_filter.mp he').1

/-- Only an append brings a new id. -/
theorem LogRequest.mem_ids_after {es : List LogEntry} {request : LogRequest} {id : String}
    (h : id ∈ (request.after es).map (·.id)) :
    id ∈ es.map (·.id) ∨ request.appendedId? = some id := by
  cases request with
  | append e =>
    rw [after, List.map_append, List.mem_append] at h
    exact h.imp_right fun h => congrArg some (List.mem_singleton.mp h).symm
  | update e =>
    left
    simp only [after, List.map_map, List.mem_map, Function.comp_apply] at h ⊢
    obtain ⟨old, hmem, rfl⟩ := h
    refine ⟨old, hmem, ?_⟩
    split
    case isTrue hid => exact hid
    case isFalse => rfl
  | delete | purge =>
    exact .inl ((List.filter_sublist.map _).subset h)
  | get | query | stats => exact .inl h

theorem LogRequest.mem_after {es : List LogEntry} {request : LogRequest} {e : LogEntry}
    (h : e ∈ request.after es) : e ∈ es ∨ request.entry? = some e := by
  cases request with
  | append e' =>
    exact (List.mem_append.mp h).imp_right fun h => congrArg some (List.mem_singleton.mp h).symm
  | update e' =>
    obtain ⟨old, hmem, heq⟩ := List.mem_map.mp h
    split at heq
    case isTrue => exact .inr (congrArg some heq)
    case isFalse => exact .inl (heq ▸ hmem)
  | delete | purge => exact .inl (List.mem_filter.mp h).1
  | get | query | stats => exact .inl h

theorem LogRequest.nodup_after {es : List LogEntry} {request : LogRequest}
    (h : (es.map (·.id)).Nodup) (new : ∀ id, request.appendedId? = some id → id ∉ es.map (·.id)) :
    ((request.after es).map (·.id)).Nodup := by
  cases request with
  | append e =>
    rw [after, List.map_append, List.nodup_append]
    refine ⟨h, List.pairwise_singleton _ _, fun id hid id' hid' heq => ?_⟩
    obtain rfl := List.mem_singleton.mp hid'
    obtain rfl : id = e.id := heq
    exact new _ rfl hid
  | update e =>
    have hids : ((LogRequest.update e).after es).map (·.id) = es.map (·.id) := by
      rw [after, List.map_map]
      refine List.map_congr_left fun old _ => ?_
      simp only [Function.comp_apply]
      split
      case isTrue hid => exact hid.symm
      case isFalse => rfl
    rw [hids]
    exact h
  | delete | purge => exact h.sublist (List.filter_sublist.map _)
  | get | query | stats => exact h

theorem LogRequest.isOrdinary_of_entry? {request : LogRequest} {e : LogEntry}
    (h : request.IsOrdinary) (brings : request.entry? = some e) : e.IsOrdinary := by
  cases request with
  | append e' | update e' => exact Option.some.inj brings ▸ h
  | delete | get | query | stats | purge => cases brings

end Conveyor
