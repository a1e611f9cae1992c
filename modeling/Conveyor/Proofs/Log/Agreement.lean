import Conveyor.Proofs.Log.Serving

/-!
# The repositories agree

The log in memory and the table answer any ordinary requests alike. Both answer as a list of entries
does, and a request that one of them serves leaves both with the same list.
-/

namespace Conveyor.LogRepository

variable {es : List LogEntry} {request : LogRequest} {requests : List LogRequest}

/-! ## One request -/

theorem serve_memory (h : IsLog es) (ordinary : request.IsOrdinary)
    (new : ∀ id, request.appendedId? = some id → id ∉ es.map (·.id)) :
    serve (.memory (.ofEntries es)) request =
      .ok (request.reply es, .memory (.ofEntries (request.after es))) := by
  cases request with
  | append e =>
    simp only [serve, append, MemoryLog.append_ofEntries (new _ rfl)]
    rfl
  | update e =>
    simp only [serve, update, MemoryLog.update_ofEntries h.ids]
    rfl
  | delete id =>
    simp only [serve, delete, MemoryLog.delete_ofEntries h.ids]
    rfl
  | get id =>
    simp only [serve, get, MemoryLog.get?_ofEntries]
    rfl
  | query f limit offset =>
    simp only [serve, query, MemoryLog.query_ofEntries h.ordinary ordinary]
    rfl
  | stats now =>
    simp only [serve, stats, MemoryLog.stats_ofEntries h.ordinary ordinary]
    rfl
  | purge now =>
    simp only [serve, purge, MemoryLog.purge_ofEntries h.ids h.ordinary ordinary]
    rfl

theorem serve_table (h : IsLog es) (ordinary : request.IsOrdinary)
    (new : ∀ id, request.appendedId? = some id → id ∉ es.map (·.id)) :
    serve (.table (.ofEntries es)) request =
      .ok ((request.reply es).universal, .table (.ofEntries (request.after es))) := by
  cases request with
  | append e =>
    simp only [serve, append, TableLog.append_ofEntries ordinary (new _ rfl)]
    rfl
  | update e =>
    simp only [serve, update, TableLog.update_ofEntries ordinary]
    rfl
  | delete id =>
    simp only [serve, delete, TableLog.delete_ofEntries]
    rfl
  | get id =>
    simp only [serve, get, TableLog.get_ofEntries h.ordinary]
    rfl
  | query f limit offset =>
    simp only [serve, query, TableLog.query_ofEntries h ordinary]
    rfl
  | stats now =>
    simp only [serve, stats, TableLog.stats_ofEntries h.ordinary ordinary]
    rfl
  | purge now =>
    simp only [serve, purge, TableLog.purge_ofEntries (fun e he => (h.ordinary e he).fits) ordinary.fits]
    rfl

/-! ## Any requests -/

/-- What the requests bring fits to a list of entries: new ids, and moments of their own. -/
structure Fits (es : List LogEntry) (requests : List LogRequest) : Prop where
  ids : (es.map (·.id) ++ requests.filterMap LogRequest.appendedId?).Nodup
  moments : ∀ e ∈ es ++ requests.filterMap LogRequest.entry?,
    ∀ e' ∈ es ++ requests.filterMap LogRequest.entry?,
      e.id ≠ e'.id → e.createdAt.instant ≠ e'.createdAt.instant
  entries : ∀ e ∈ es, e.IsOrdinary
  requests : ∀ r ∈ requests, r.IsOrdinary

theorem Fits.isLog (h : Fits es requests) : IsLog es where
  ids := (List.nodup_append.mp h.ids).1
  ordinary := h.entries
  moments e he e' he' := h.moments e (List.mem_append_left _ he) e' (List.mem_append_left _ he')

theorem Fits.new (h : Fits es (request :: requests)) (id : String)
    (hid : request.appendedId? = some id) : id ∉ es.map (·.id) := by
  intro hmem
  refine (List.nodup_append.mp h.ids).2.2 id hmem id ?_ rfl
  exact List.mem_filterMap.mpr ⟨request, List.mem_cons_self, hid⟩

/-- After a request the rest of the requests still fits. -/
theorem Fits.after (h : Fits es (request :: requests)) :
    Fits (request.after es) requests := by
  -- what is there now was there before or came with the request
  have brought {e : LogEntry} (he : e ∈ request.after es ++ requests.filterMap LogRequest.entry?) :
      e ∈ es ++ (request :: requests).filterMap LogRequest.entry? := by
    rcases List.mem_append.mp he with hafter | hrest
    · rcases LogRequest.mem_after hafter with hold | hnew
      · exact List.mem_append_left _ hold
      · exact List.mem_append_right _
          (List.mem_filterMap.mpr ⟨request, List.mem_cons_self, hnew⟩)
    · obtain ⟨r, hr, hentry⟩ := List.mem_filterMap.mp hrest
      exact List.mem_append_right _ (List.mem_filterMap.mpr ⟨r, .tail _ hr, hentry⟩)
  constructor
  case ids =>
    obtain ⟨hold, happended, hapart⟩ := List.nodup_append.mp h.ids
    have hrest : (requests.filterMap LogRequest.appendedId?).Sublist
        ((request :: requests).filterMap LogRequest.appendedId?) :=
      (List.sublist_cons_self request requests).filterMap _
    refine List.nodup_append.mpr ⟨LogRequest.nodup_after hold h.new, happended.sublist hrest, ?_⟩
    rintro id hid id' hid' rfl
    rcases LogRequest.mem_ids_after hid with hmem | hnew
    · exact hapart id hmem id (hrest.subset hid') rfl
    · rw [List.filterMap_cons_some hnew] at happended
      exact (List.nodup_cons.mp happended).1 hid'
  case moments => exact fun e he e' he' => h.moments e (brought he) e' (brought he')
  case entries =>
    intro e he
    rcases LogRequest.mem_after he with hold | hnew
    · exact h.entries e hold
    · exact LogRequest.isOrdinary_of_entry? (h.requests request List.mem_cons_self) hnew
  case requests => exact fun r hr => h.requests r (.tail _ hr)

theorem answers_memory (h : Fits es requests) :
    answers (.memory (.ofEntries es)) requests =
      (LogRequest.replies es requests).map .ok := by
  induction requests generalizing es with
  | nil => rfl
  | cons request requests ih =>
    rw [answers, serve_memory h.isLog (h.requests _ List.mem_cons_self) h.new]
    exact congrArg (.ok (request.reply es) :: ·) (ih h.after)

theorem answers_table (h : Fits es requests) :
    answers (.table (.ofEntries es)) requests =
      (LogRequest.replies es requests).map fun r => .ok r.universal := by
  induction requests generalizing es with
  | nil => rfl
  | cons request requests ih =>
    rw [answers, serve_table h.isLog (h.requests _ List.mem_cons_self) h.new]
    exact congrArg (.ok (request.reply es).universal :: ·) (ih h.after)

/-- An entry made so many minutes into the first of June 2024 on a clock, kept for an hour. -/
def juneEntry (id : String) (minutes hoursAhead : Int) : LogEntry :=
  let created : Moment := ⟨(Calendar.Date.toDay ⟨2024, 6, 1⟩ : Int) * Moment.dayMicros +
    minutes * 60000000, some (hoursAhead * 3600000000)⟩
  { id := id
    dataId := "d"
    source := "s"
    destination := some "x"
    dataSent := .object [("n", .int 1)]
    createdAt := created
    updatedAt := created
    expiresAt := some { created with wall := created.wall + 3600000000 } }

end Conveyor.LogRepository
