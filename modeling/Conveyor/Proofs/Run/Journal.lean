import Conveyor.Destination.Recording
import Conveyor.Proofs.Log.Memory
import Conveyor.Proofs.Pipeline.Sound
import Conveyor.Proofs.Run.Trail

/-!
# The journal of a run

What a run that is logged does to the log: it opens one entry under an id that it draws, puts one
version of that entry after another in its place, a retry more in each, and closes it. The entries
of other ids stay as they were.
-/

namespace Conveyor.Run

open Activity

variable {c : ExecutorConfig} {p : Pipeline} {r : InboundRecord} {w : Option Workflow}
  {events : List Event}

/-! ## The parts of the journal -/

/-- An entry that has just been opened. -/
structure Opened (e : LogEntry) : Prop where
  status : e.status = .pending
  retryCount : e.retryCount = 0

theorem Opened.isOpen {e : LogEntry} (h : Opened e) : e.isTerminal = false := by
  rw [LogEntry.isTerminal, h.status]
  rfl

/-- The ways in which an entry is opened: it has no moment to expire at, and nothing happens; or an
id is drawn for it, and it is put into the log under that id. -/
inductive Opening (expires : Moment → Except Fault (Option Moment))
    (make : Moment → Option Moment → String → LogEntry) :
    List Event → Except Fault LogEntry → Prop where
  | refused {created : Moment} {f : Fault} (never : expires created = .error f) :
      Opening expires make [⟨.now, created⟩] (.error f)
  | opened {created : Moment} {until_ : Option Moment} {id : String}
      (due : expires created = .ok until_) :
      Opening expires make
        [⟨.now, created⟩, ⟨.drawId, id⟩, ⟨.append (make created until_ id), ()⟩]
        (.ok (make created until_ id))

/-- The entry of a run that has started. -/
def openedEntry (r : InboundRecord) (p : Pipeline) (w : Option Workflow) (created : Moment)
    (expires : Option Moment) (id : String) : LogEntry where
  id := id
  dataId := r.dataId
  source := r.sourceLabel
  destination := p.destinationLabel
  host := r.host
  dataSent := .object r.payload
  workflowId := Journal.workflowId p w
  pipelineId := some p.id
  createdAt := created
  updatedAt := created
  expiresAt := expires

/-- The entry of a record that no pipeline takes. -/
def droppedEntry (r : InboundRecord) (created : Moment) (expires : Option Moment) (id : String) :
    LogEntry where
  id := id
  dataId := r.dataId
  source := r.sourceLabel
  host := r.host
  dataSent := .object r.payload
  message := some Journal.droppedMessage
  status := .dropped
  createdAt := created
  updatedAt := created
  expiresAt := expires

theorem opening_start {out : Except Fault LogEntry} (h : Course (Journal.start r p w) events out) :
    Opening (Journal.expiry · (w.map (·.header.retentionHours))) (openedEntry r p w) events out := by
  obtain ⟨created, _, rfl, rest⟩ := course_request_bind_iff.mp h
  cases hexpires : Journal.expiry created (w.map (·.header.retentionHours)) with
  | error f =>
    rw [hexpires] at rest
    obtain ⟨rfl, rfl⟩ := course_pure_iff.mp rest
    exact .refused hexpires
  | ok expires =>
    rw [hexpires] at rest
    obtain ⟨id, _, rfl, appended⟩ := course_request_bind_iff.mp rest
    obtain ⟨_, _, rfl, last⟩ := course_request_bind_iff.mp appended
    obtain ⟨rfl, rfl⟩ := course_pure_iff.mp last
    exact .opened hexpires

theorem opening_dropped {hours : Option Binary64} {out : Except Fault LogEntry}
    (h : Course (Journal.dropped r hours) events out) :
    Opening (Journal.expiry · (hours.filter fun h => !h.isZero)) (droppedEntry r) events out := by
  obtain ⟨created, _, rfl, rest⟩ := course_request_bind_iff.mp h
  cases hexpires : Journal.expiry created (hours.filter fun h => !h.isZero) with
  | error f =>
    rw [hexpires] at rest
    obtain ⟨rfl, rfl⟩ := course_pure_iff.mp rest
    exact .refused hexpires
  | ok expires =>
    rw [hexpires] at rest
    obtain ⟨id, _, rfl, appended⟩ := course_request_bind_iff.mp rest
    obtain ⟨_, _, rfl, last⟩ := course_request_bind_iff.mp appended
    obtain ⟨rfl, rfl⟩ := course_pure_iff.mp last
    exact .opened hexpires

/-- Starting draws one id and puts one open entry into the log under it. -/
theorem course_start {e : LogEntry} (h : Course (Journal.start r p w) events (.ok e)) :
    Opened e ∧ logOps events = [.append e] ∧ drawnIds events = [e.id] := by
  cases opening_start h with
  | opened => exact ⟨⟨rfl, rfl⟩, rfl, rfl⟩

/-- A run that is logged has an open entry. -/
theorem course_openEntry {entry : Option LogEntry}
    (h : Course (openEntry true r p w) events (.ok entry)) :
    ∃ e, entry = some e ∧ Opened e ∧ logOps events = [.append e] ∧ drawnIds events = [e.id] := by
  unfold openEntry at h
  obtain ⟨before, after, started, rfl, first, rest⟩ := course_bind_iff.mp h
  obtain ⟨rfl, hentry⟩ := course_pure_iff.mp rest
  cases started with
  | error f => cases hentry
  | ok e =>
    cases hentry
    obtain ⟨hopened, hops, hids⟩ := course_start first
    exact ⟨e, rfl, hopened, by simpa using hops, by simpa using hids⟩

/-- A run starts with an open entry, if it has one. -/
theorem all_open_of_openEntry {logged : Bool} {entry : Option LogEntry}
    (h : Course (openEntry logged r p w) events (.ok entry)) :
    ∀ e, entry = some e → e.isTerminal = false := by
  intro e he
  cases logged with
  | false =>
    obtain ⟨-, hentry⟩ := course_pure_iff.mp h
    rw [he] at hentry
    cases hentry
  | true =>
    obtain ⟨first, hentry, opened, -⟩ := course_openEntry h
    rw [hentry] at he
    cases he
    exact opened.isOpen

/-- How an entry is closed after a run that succeeded or not. -/
structure ClosingOf (success : Bool) (e e' : LogEntry) : Prop where
  status : e'.status = if success then .success else .failed
  id : e'.id = e.id
  retryCount : e'.retryCount = e.retryCount
  createdAt : e'.createdAt = e.createdAt
  expiresAt : e'.expiresAt = e.expiresAt

/-- The entry of a failed run is thrown away if the workflow says so. -/
def discards (success : Bool) (w : Option Workflow) : Bool :=
  !success && w.any (·.header.deleteFailedImmediately)

/-- The last change of the log. An entry that is not thrown away is put in place closed. -/
def lastOp (success : Bool) (w : Option Workflow) (e : LogEntry) : LogOp :=
  if discards success w then .discard e.id else .update e

theorem course_finish {e e' : LogEntry} {end_ : Journal.Ending}
    (h : Course (Journal.finish e end_ w) events (.ok e')) :
    ClosingOf end_.success e e' ∧ logOps events = [lastOp end_.success w e'] := by
  unfold Journal.finish at h
  split at h
  · obtain ⟨-, he⟩ := course_pure_iff.mp h
    cases he
  · obtain ⟨updated, _, rfl, rest⟩ := course_request_bind_iff.mp h
    simp only at rest
    split at rest
    · rename_i hdiscard
      obtain ⟨_, _, rfl, last⟩ := course_request_bind_iff.mp rest
      obtain ⟨rfl, he⟩ := course_pure_iff.mp last
      cases he
      refine ⟨⟨rfl, rfl, rfl, rfl, rfl⟩, ?_⟩
      rw [lastOp, discards, if_pos hdiscard]
      rfl
    · rename_i hkeep
      obtain ⟨_, _, rfl, last⟩ := course_request_bind_iff.mp rest
      obtain ⟨rfl, he⟩ := course_pure_iff.mp last
      cases he
      refine ⟨⟨rfl, rfl, rfl, rfl, rfl⟩, ?_⟩
      rw [lastOp, discards, if_neg hkeep]
      rfl

/-- The end of a run closes its entry. -/
theorem course_close {ended : Ended} {entry : Option LogEntry} {e : LogEntry}
    (h : Course (close r p w ended) events (.ok entry)) (he : ended.progress.entry = some e) :
    ∃ last, entry = some last ∧ ClosingOf ended.error.isNone e last ∧
      logOps events = [lastOp ended.error.isNone w last] := by
  unfold close at h
  rw [he] at h
  obtain ⟨before, after, closed, rfl, first, rest⟩ := course_bind_iff.mp h
  obtain ⟨rfl, hentry⟩ := course_pure_iff.mp rest
  cases closed with
  | error f => cases hentry
  | ok last =>
    cases hentry
    obtain ⟨hclosing, hops⟩ := course_finish first
    exact ⟨last, rfl, hclosing, by simpa using hops⟩

/-- On its way through a plan a run does nothing to the log but put versions of its entry in
place. -/
theorem retries_of_trail {plan : List Step} {fuel : Nat} {scope : Scope} {q : Progress}
    {order : Int} {visits : List Visit} {ended : Ended}
    (trail : Trail c plan fuel scope q order visits ended) :
    ∃ versions, logOps (visits.flatMap Visit.events) = versions.map .update ∧
      Retries q.entry versions ended.progress.entry := by
  induction trail with
  | leave => exact ⟨[], rfl, .refl _⟩
  | exhaust => exact ⟨[], rfl, .refl _⟩
  | goOn _ happens next _ ih =>
    obtain ⟨outcome, ends⟩ := Visit.ends happens
    obtain ⟨-, us, hus, first⟩ := Visit.leaves happens ends
    obtain ⟨vs, hvs, rest⟩ := ih
    rw [next] at first
    refine ⟨us ++ vs, ?_, first.trans rest⟩
    rw [List.flatMap_cons, logOps_append, hus, hvs, List.map_append]
  | stop _ happens next =>
    obtain ⟨outcome, ends⟩ := Visit.ends happens
    obtain ⟨-, us, hus, first⟩ := Visit.leaves happens ends
    rw [next] at first
    exact ⟨us, by simpa using hus, first⟩

/-- The journal of a run: its entry when it was opened, each time that it was in retry, and when it
was closed. -/
structure Story (result : RunResult) (w : Option Workflow) (ops : List LogOp) (first : LogEntry)
    (versions : List LogEntry) (last : LogEntry) : Prop where
  entry : result.entry = some last
  ops_eq : ops = .append first :: (versions.map .update ++ [lastOp result.isComplete w last])
  opened : Opened first
  retried : ∀ (i : Nat) (v : LogEntry), versions[i]? = some v →
    v.status = .retry ∧ v.retryCount = i + 1
  closed : last.status = if result.isComplete then .success else .failed
  retryCount : last.retryCount = versions.length
  same : ∀ v ∈ versions ++ [last],
    v.id = first.id ∧ v.createdAt = first.createdAt ∧ v.expiresAt = first.expiresAt

/-- Every run that is logged has a story, under the first id that it draws. The versions in between
are those that its visits put in place. -/
theorem Parts.exists_story {result : RunResult} (parts : Parts c true p r w events result) :
    ∃ first versions last, Story result w (logOps events) first versions last ∧
      (drawnIds events).head? = some first.id ∧ parts.entry = some first ∧
      logOps (parts.visits.flatMap Visit.events) = versions.map .update := by
  obtain ⟨first, hentry, hopened, hfirst, hids⟩ := course_openEntry parts.opens
  obtain ⟨versions, hversions, hretries⟩ := retries_of_trail parts.trail
  rw [hentry] at hretries
  obtain ⟨open_, hopen⟩ := hretries.exists_last
  rw [hopen] at hretries
  obtain ⟨last, hresult, hclosing, hlast⟩ := course_close parts.closes hopen
  have hcomplete : parts.ended.error.isNone = result.isComplete := by
    rw [RunResult.isComplete, parts.error_eq]
  rw [hcomplete] at hclosing hlast
  obtain ⟨hcount, hid, hcreated, hexpires⟩ := hretries.last_eq
  refine ⟨first, versions, last, ⟨hresult, ?_, hopened, ?_, hclosing.status, ?_, ?_⟩, ?_, hentry,
    hversions⟩
  · rw [parts.events_eq, logOps_append, logOps_append, hfirst, hversions, hlast]
    rfl
  · intro i v hi
    obtain ⟨hstatus, hnumber, -⟩ := hretries.version hi
    rw [hopened.retryCount] at hnumber
    exact ⟨hstatus, by omega⟩
  · rw [hclosing.retryCount, hcount, hopened.retryCount, Nat.zero_add]
  · intro v hv
    rcases List.mem_append.mp hv with hmem | hmem
    · obtain ⟨i, hi⟩ := List.mem_iff_getElem?.mp hmem
      exact (hretries.version hi).2.2
    · obtain rfl := List.mem_singleton.mp hmem
      exact ⟨hclosing.id.trans hid, hclosing.createdAt.trans hcreated,
        hclosing.expiresAt.trans hexpires⟩
  · rw [parts.events_eq, drawnIds_append, hids]
    rfl

namespace Story

variable {result : RunResult} {ops : List LogOp} {first last : LogEntry}
  {versions : List LogEntry}

/-- A story is about one id. -/
theorem id_of_mem (h : Story result w ops first versions last) : ∀ op ∈ ops, op.id = first.id := by
  have hlast : last.id = first.id := (h.same last (by simp)).1
  intro op hop
  rw [h.ops_eq] at hop
  rcases List.mem_cons.mp hop with rfl | hop
  · rfl
  · rcases List.mem_append.mp hop with hop | hop
    · obtain ⟨v, hv, rfl⟩ := List.mem_map.mp hop
      exact (h.same v (by simp [hv])).1
    · obtain rfl := List.mem_singleton.mp hop
      rw [lastOp]
      split
      · exact hlast
      · exact hlast

/-- An entry that is not thrown away is in the log as it was closed. -/
theorem get?_of_kept (h : Story result w ops first versions last)
    (hkept : discards result.isComplete w = false) (l : MemoryLog) :
    (ops.foldl LogOp.apply l).get? first.id = some last := by
  -- closing a kept entry is one update more, so all that follows the opening are updates
  have hops : ops = .append first :: (versions ++ [last]).map .update := by
    rw [h.ops_eq, lastOp, hkept, List.map_append]
    rfl
  rw [hops, List.foldl_cons]
  have hopened : (l.append first).get? first.id = some first := Keyed.get?_put_same _ _ _
  show (((versions ++ [last]).map .update).foldl LogOp.apply (l.append first)).get? first.id = _
  rw [MemoryLog.get?_updates hopened fun v hv => (h.same v hv).1, List.getLastD_concat]

/-- An entry under a new id that is thrown away leaves no trace. -/
theorem eq_of_discarded (h : Story result w ops first versions last)
    (hdiscarded : discards result.isComplete w = true) {l : MemoryLog}
    (hnew : l.get? first.id = none) : ops.foldl LogOp.apply l = l := by
  have hlast : last.id = first.id := (h.same last (by simp)).1
  have hops : ops = .append first :: (versions.map .update ++ [.discard first.id]) := by
    rw [h.ops_eq, lastOp, hdiscarded, hlast]
    rfl
  rw [hops, List.foldl_cons, List.foldl_append]
  exact MemoryLog.discard_updates hnew fun v hv => (h.same v (by simp [hv])).1

end Story

/-!
## Runs without a result

A run that is logged has no result only if its entry would have no moment to expire at. Then it does
nothing but look at the clock.
-/

/-- A run that is logged begins by opening its entry. -/
theorem opening_openEntry {out : Except Fault (Option LogEntry)}
    (h : Course (openEntry true r p w) events out) :
    ∃ started, out = started.map some ∧
      Opening (Journal.expiry · (w.map (·.header.retentionHours))) (openedEntry r p w) events
        started := by
  obtain ⟨before, after, started, rfl, first, rest⟩ := course_bind_iff.mp h
  obtain ⟨rfl, rfl⟩ := course_pure_iff.mp rest
  rw [List.append_nil]
  exact ⟨started, rfl, opening_start first⟩

/-- An open entry can be closed. -/
theorem close_ne_error {ended : Ended} {e : LogEntry} {f : Fault} (he : ended.progress.entry = some e)
    (open_ : e.isTerminal = false) : ¬ Course (close r p w ended) events (.error f) := by
  intro h
  unfold close at h
  rw [he] at h
  obtain ⟨before, after, closed, rfl, first, rest⟩ := course_bind_iff.mp h
  obtain ⟨-, hclosed⟩ := course_pure_iff.mp rest
  unfold Journal.finish at first
  rw [open_, if_neg Bool.false_ne_true] at first
  obtain ⟨updated, _, rfl, rest⟩ := course_request_bind_iff.mp first
  simp only at rest
  split at rest
  · obtain ⟨_, _, rfl, last⟩ := course_request_bind_iff.mp rest
    obtain ⟨-, rfl⟩ := course_pure_iff.mp last
    cases hclosed
  · obtain ⟨_, _, rfl, last⟩ := course_request_bind_iff.mp rest
    obtain ⟨-, rfl⟩ := course_pure_iff.mp last
    cases hclosed

/-- An entry that is open is closed. -/
theorem exists_of_close {e : Ended} {closed : Except Fault (Option LogEntry)}
    (isOpen : ∀ entry, e.progress.entry = some entry → entry.isTerminal = false)
    (course : Course (close r p w e) events closed) : ∃ entry, closed = .ok entry := by
  cases closed with
  | ok entry => exact ⟨entry, rfl⟩
  | error f =>
    exfalso
    cases hentry : e.progress.entry with
    | none =>
      unfold close at course
      rw [hentry] at course
      obtain ⟨-, h⟩ := course_pure_iff.mp course
      cases h
    | some entry => exact close_ne_error hentry (isOpen entry hentry) course

/-- When the entry of a run expires. -/
def entryExpiry (now : Moment) (w : Option Workflow) : Except Fault (Option Moment) :=
  Journal.expiry now (w.map (·.header.retentionHours))

/-- A run that is logged comes to a result by a story about an entry, which expires when it should. -/
structure Recorded (r : InboundRecord) (p : Pipeline) (w : Option Workflow) (now : Moment)
    (events : List Event) (result : RunResult) (first last : LogEntry) : Prop where
  story : ∃ versions, Story result w (logOps events) first versions last
  opened : ∃ until_, entryExpiry now w = .ok until_ ∧ first = openedEntry r p w now until_ first.id
  drawn : first.id ∈ drawnIds events

/-- What comes of a run that is logged. -/
theorem course_logged {out : Except Fault RunResult} {now : Moment}
    (h : Course (p.run c true r w) events out) (clock : ∀ t : Moment, ⟨.now, t⟩ ∈ events → t = now) :
    (∃ f, out = .error f ∧ entryExpiry now w = .error f ∧ logOps events = []) ∨
      ∃ result first last, out = .ok result ∧ Recorded r p w now events result first last := by
  cases out with
  | ok result =>
    obtain ⟨parts⟩ := exists_parts h
    obtain ⟨first, versions, last, story, hdrawn, hentry, -⟩ := parts.exists_story
    refine .inr ⟨result, first, last, rfl, ⟨versions, story⟩, ?_, List.mem_of_mem_head? hdrawn⟩
    obtain ⟨started, hstarted, opening⟩ := opening_openEntry parts.opens
    have hevents := parts.events_eq
    rw [hentry] at hstarted
    generalize parts.opening = before at opening hevents
    cases opening with
    | refused => cases hstarted
    | @opened created until_ id due =>
      obtain rfl := clock created (by simp [hevents])
      cases hstarted
      exact ⟨until_, due, rfl⟩
  | error f =>
    refine .inl ⟨f, rfl, ?_⟩
    obtain ⟨opening, after, opened, rfl, opens, rest⟩ := course_bind_iff.mp h
    cases opened with
    | error f' =>
      obtain ⟨rfl, hf⟩ := course_pure_iff.mp rest
      cases hf
      obtain ⟨started, hstarted, opening⟩ := opening_openEntry opens
      cases opening with
      | @refused created f' never =>
        cases hstarted
        obtain rfl := clock created (by simp)
        exact ⟨never, rfl⟩
      | opened => cases hstarted
    | ok entry =>
      -- an entry that was opened can be closed after all retries
      obtain ⟨middle, after, ended, rfl, taken, last⟩ := course_bind_iff.mp rest
      obtain ⟨visits, trail, rfl⟩ := trail_of_steps taken
      obtain ⟨closing, after, closed, rfl, closes, final⟩ := course_bind_iff.mp last
      cases closed with
      | ok entry' =>
        obtain ⟨-, hf⟩ := course_pure_iff.mp final
        cases hf
      | error f' =>
        obtain ⟨first, rfl, hopened, -, -⟩ := course_openEntry opens
        obtain ⟨versions, -, hretries⟩ := retries_of_trail trail
        obtain ⟨e, he⟩ := hretries.exists_last
        exact absurd closes (close_ne_error he ((he ▸ hretries).isOpen hopened.isOpen))

/-! ## In memory -/

/-- What a run that is logged does to a log in memory, whenever it has a result: its changes are the
story of one entry, under an id that was not drawn before. In the end the log has that entry as the
result has it, or without a trace of it if it was thrown away; and the other entries are as they
were. -/
theorem logged_run_tells_story {σ τ : Type} (a : Adapter τ σ) (world : World σ)
    (c : ExecutorConfig) (p : Pipeline) (r : InboundRecord) (w : Option Workflow)
    {result : RunResult} (returned : (world.carryOut a (p.run c true r w)).1 = .ok result) :
    ∃ first versions last,
      Story result w (logOps (Activity.events (World.reply a) (p.run c true r w) world)) first
        versions last ∧
      first.id = World.idText (world.drawn + 1) ∧
      (∀ n ≤ world.drawn, World.idText n ≠ first.id) ∧
      (discards result.isComplete w = false →
        (world.carryOut a (p.run c true r w)).2.log.get? first.id = some last) ∧
      (discards result.isComplete w = true → world.log.get? first.id = none →
        (world.carryOut a (p.run c true r w)).2.log = world.log) ∧
      (world.carryOut a (p.run c true r w)).2.log.others first.id = world.log.others first.id := by
  have course := course_events (World.reply a) (p.run c true r w) world
  rw [show (carryOut (World.reply a) (p.run c true r w) world).1 = .ok result from returned]
    at course
  obtain ⟨parts⟩ := exists_parts course
  obtain ⟨first, versions, last, story, hdrawn, -⟩ := parts.exists_story
  have hid : first.id = World.idText (world.drawn + 1) := by
    -- ids are drawn in order, and the first of the run is that of its entry
    obtain ⟨n, hn⟩ := World.drawnIds_events a (p.run c true r w) world
    rw [hn] at hdrawn
    cases n with
    | zero => cases hdrawn
    | succ n => exact (Option.some.inj hdrawn).symm
  refine ⟨first, versions, last, story, hid, fun n hn heq => ?_, ?_, ?_, ?_⟩
  · have hdrawn' : n = world.drawn + 1 := World.idText_inj (heq.trans hid)
    omega
  · intro hkept
    rw [World.log_carryOut]
    exact story.get?_of_kept hkept _
  · intro hdiscarded hnew
    rw [World.log_carryOut]
    exact story.eq_of_discarded hdiscarded hnew
  · rw [World.log_carryOut]
    exact MemoryLog.others_foldl story.id_of_mem

/-- A pipeline that tries its destination three times. -/
def patient : Pipeline where
  id := "patient"
  sourceKind := .senderApp
  applicationId := some 1
  destinationKind := some .rest
  restId := some 7
  delivery := { onError := .retry, maxRetries := 2 }

/-- A destination that is down for two calls, and the log of an earlier run. -/
def recovering : World Recording where
  now := ⟨0, none⟩
  drawn := 1
  log :=
    ⟨[("id-1",
      { id := "id-1"
        dataId := "earlier"
        source := "sender_app:1"
        createdAt := ⟨0, none⟩
        updatedAt := ⟨0, none⟩ })]⟩
  destinations := { failures := [("rest:7", 2)] }

theorem patient_tells_story :
    ∃ result,
      (recovering.carryOut Recording.adapter (patient.run {} true reading none)).1 = .ok result ∧
      ∃ first versions last,
        Story result none
          (logOps (Activity.events (World.reply Recording.adapter)
            (patient.run {} true reading none) recovering)) first versions last ∧
        versions.length = 2 ∧
        (recovering.carryOut Recording.adapter (patient.run {} true reading none)).2.log.get?
          first.id = some last := by
  have sorted : patient.sortedSteps = patient.steps := Pipeline.sortedSteps_eq (by decide)
  obtain ⟨result, returned, completed, tried⟩ :
      ∃ result,
        (recovering.carryOut Recording.adapter (patient.run {} true reading none)).1 = .ok result ∧
        result.isComplete = true ∧ result.entry.map (·.retryCount) = some 2 := by
    unfold Pipeline.run Pipeline.plan
    rw [sorted]
    decide +kernel
  obtain ⟨first, versions, last, story, -, -, kept, -⟩ :=
    logged_run_tells_story Recording.adapter recovering {} patient reading none returned
  refine ⟨result, returned, first, versions, last, story, ?_, kept (by rw [discards, completed]; rfl)⟩
  rw [story.entry] at tried
  rw [← story.retryCount]
  exact Option.some.inj tried

end Conveyor.Run
