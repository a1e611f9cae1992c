import Conveyor.Proofs.Run.Limit
import Conveyor.Proofs.Run.Mirror

/-!
# Runs with and without a log

A run that is logged does what the same run does without a log, and keeps books besides: it asks for the time
and an id, and puts versions of its entry into the log (`Annotates`). The entry is open until the run is over,
so the log refuses none of them. What the run does and how it ends is not touched by its books
(`run_without_log`).
-/

namespace Conveyor

/-- Asked to keep the books: the time, an id, a change of the log. -/
def Ask.isBooking : Ask → Bool
  | .now | .drawId | .append _ | .update _ | .discard _ => true
  | .draw | .turn _ | .call .. | .wait _ => false

namespace Activity

variable {α β γ δ : Type}

/-- The first activity does what the second does, and keeps books besides. -/
inductive Annotates (R : α → β → Prop) : Activity α → Activity β → Prop where
  | done {a : α} {b : β} (related : R a b) : Annotates R (.done a) (.done b)
  | ask {q : Ask} (felt : q.isBooking = false) {next : q.Reply → Activity α}
      {next' : q.Reply → Activity β} (rest : ∀ r, Annotates R (next r) (next' r)) :
      Annotates R (.ask q next) (.ask q next')
  | book {q : Ask} (booking : q.isBooking = true) {next : q.Reply → Activity α} {t' : Activity β}
      (rest : ∀ r, Annotates R (next r) t') : Annotates R (.ask q next) t'

variable {R : α → β → Prop} {S : γ → δ → Prop} {t : Activity α} {t' : Activity β}
  {f : α → Activity γ} {g : β → Activity δ}

theorem Annotates.bind (h : Annotates R t t') (rest : ∀ a b, R a b → Annotates S (f a) (g b)) :
    Annotates S (t >>= f) (t' >>= g) := by
  induction h with
  | done related => exact rest _ _ related
  | ask felt _ ih => exact .ask felt ih
  | book booking _ ih => exact .book booking ih

theorem annotates_pure {a : α} {b : β} (related : R a b) :
    Annotates R (pure a) (pure b) := .done related

/-- The same request at the head of two sequences. -/
theorem annotates_request {q : Ask} (felt : q.isBooking = false) {f : q.Reply → Activity γ}
    {g : q.Reply → Activity δ} (rest : ∀ r, Annotates S (f r) (g r)) :
    Annotates S (request q >>= f) (request q >>= g) :=
  .ask felt rest

/-- Something for the books at the head of the first. -/
theorem annotates_booking {q : Ask} (booking : q.isBooking = true) {f : q.Reply → Activity α}
    (rest : ∀ r, Annotates R (f r) t') : Annotates R (request q >>= f) t' :=
  .book booking rest

/-- The events of a course that have nothing to do with the books. -/
def felt (events : List Event) : List Event := events.filter fun e => !e.ask.isBooking

theorem felt_append (es fs : List Event) : felt (es ++ fs) = felt es ++ felt fs :=
  List.filter_append ..

theorem calls_felt (events : List Event) : calls (felt events) = calls events := by
  induction events with
  | nil => rfl
  | cons e events ih =>
    obtain ⟨q, reply⟩ := e
    rw [calls_cons, ← ih]
    cases q <;> rfl

end Activity

/-! ## In memory -/

namespace World

open Activity

variable {α β σ τ : Type} {w w' : World σ} {q : Ask}

/-- The same but for the log and the ids that have been drawn. -/
def BesidesBooks (w w' : World σ) : Prop := ∃ drawn log, w' = { w with drawn, log }

theorem BesidesBooks.reply (h : w.BesidesBooks w') (a : Adapter τ σ) (felt : q.isBooking = false) :
    (reply a q w').1 = (reply a q w).1 ∧ (reply a q w).2.BesidesBooks (reply a q w').2 := by
  obtain ⟨drawn, log, rfl⟩ := h
  cases q with
  | call limit ref r =>
    have heq : World.reply a (.call limit ref r) { w with drawn, log } = _ :=
      callWithin_withBooks a limit ref r w drawn log
    rw [heq]
    exact ⟨rfl, drawn, log, rfl⟩
  | wait seconds => exact ⟨rfl, drawn, log, pass_withBooks seconds w drawn log⟩
  | draw | turn => exact ⟨rfl, drawn, log, rfl⟩
  | _ => cases felt

/-- Keeping books changes nothing but the books. -/
theorem BesidesBooks.book (h : w.BesidesBooks w') (a : Adapter τ σ) (booking : q.isBooking = true) :
    (World.reply a q w).2.BesidesBooks w' := by
  obtain ⟨drawn, log, rfl⟩ := h
  cases q with
  | draw | call | wait | turn => cases booking
  | _ => exact ⟨drawn, log, rfl⟩

variable {R : α → β → Prop} {t : Activity α} {t' : Activity β}

/-- An activity that keeps books besides what another one does goes as the other one goes. -/
theorem carryOut_of_annotates (h : Annotates R t t') (a : Adapter τ σ) (besides : w.BesidesBooks w') :
    R (w.carryOut a t).1 (w'.carryOut a t').1 ∧
      (w.carryOut a t).2.BesidesBooks (w'.carryOut a t').2 ∧
      felt (events (reply a) t w) = felt (events (reply a) t' w') := by
  induction h generalizing w w' with
  | done related => exact ⟨related, besides, rfl⟩
  | @ask q hfelt next next' _ ih =>
    obtain ⟨same, after⟩ := besides.reply a hfelt
    obtain ⟨related, besides, events⟩ := ih _ after
    rw [carryOut_ask, carryOut_ask, events_ask, events_ask, same]
    refine ⟨related, besides, ?_⟩
    simp only [felt, List.filter_cons] at events ⊢
    simp only [hfelt, Bool.not_false, if_true, events]
  | @book q booking next t' _ ih =>
    rw [carryOut_ask, events_ask]
    obtain ⟨related, besides, events⟩ := ih _ (besides.book a booking)
    refine ⟨related, besides, ?_⟩
    rw [← events]
    simp [felt, booking]

end World

/-! ## Runs -/

namespace Run

open Activity

variable {c : ExecutorConfig} {s : Step} {scope : Scope} {q q' : Progress}

/-- The second progress is the first, which has an open entry, without this entry. -/
structure LeavesOut (q q' : Progress) : Prop where
  isOpen : ∃ e, q.entry = some e ∧ e.isTerminal = false
  without : q' = { q with entry := none }

theorem LeavesOut.note (h : LeavesOut q q') (o : StepOutcome) :
    LeavesOut (note q o) (note q' o) := by
  obtain ⟨hopen, rfl⟩ := h
  exact ⟨hopen, rfl⟩

/-- The progresses and the results of taking a step once. -/
def SameResult (x y : Progress × Except Failure Output) : Prop :=
  LeavesOut x.1 y.1 ∧ x.2 = y.2

theorem LeavesOut.settle (h : LeavesOut q q') (ref : DestinationRef) (sent : Value)
    (answer : Answer) : SameResult (settle ref sent q answer) (settle ref sent q' answer) := by
  obtain ⟨hopen, rfl⟩ := h
  cases answer with
  | fault f => exact ⟨⟨hopen, rfl⟩, rfl⟩
  | result r =>
    unfold Run.settle
    dsimp only
    split <;> exact ⟨⟨hopen, rfl⟩, rfl⟩

theorem annotates_perform (h : LeavesOut q q') (s : Step) (action : Action) :
    Annotates SameResult (perform s q action) (perform s q' action) := by
  cases action with
  | finish output holds => exact annotates_request rfl fun _ => annotates_pure ⟨h, rfl⟩
  | send ref request sent =>
    refine annotates_request rfl fun answer => ?_
    cases answer with
    | none => exact annotates_pure ⟨h, rfl⟩
    | some answer => exact annotates_pure (h.settle ref sent answer)
  | pause seconds output => exact annotates_request rfl fun _ => annotates_pure ⟨h, rfl⟩

theorem annotates_invoke (h : LeavesOut q q') (s : Step) (scope : Scope) :
    Annotates SameResult (invoke s scope q) (invoke s scope q') := by
  unfold invoke
  split
  · exact annotates_request rfl fun _ => annotates_pure ⟨h, rfl⟩
  · unfold invokeInTime
    cases s.action scope with
    | ok action => exact annotates_perform h s action
    | error e =>
      dsimp only
      split
      · exact annotates_request rfl fun _ => annotates_pure ⟨h, rfl⟩
      · exact annotates_pure ⟨h, rfl⟩

/-- The log does not refuse an attempt that failed, and the entry stays open. -/
theorem annotates_noteRetry (h : LeavesOut q q') (message : String) :
    Annotates (fun x y => ∃ r r', x = .ok r ∧ y = .ok r' ∧ LeavesOut r r')
      (noteRetry q message) (noteRetry q' message) := by
  obtain ⟨⟨e, hentry, hopen⟩, rfl⟩ := h
  unfold noteRetry Journal.retry
  simp only [hentry, hopen, Bool.false_eq_true, if_false]
  refine annotates_booking rfl fun updated => annotates_booking rfl fun _ => annotates_pure ?_
  exact ⟨_, _, rfl, rfl, ⟨_, rfl, rfl⟩, rfl⟩

/-- A step that ended the same. -/
structure SameAttempts (a a' : Attempted) : Prop where
  progress : LeavesOut a.progress a'.progress
  attempts : a.attempts = a'.attempts
  result : a.result = a'.result

theorem annotates_attemptFrom (h : LeavesOut q q') (c : ExecutorConfig) (s : Step) (scope : Scope)
    (attempt retries : Nat) :
    Annotates SameAttempts (attemptFrom c s scope attempt q retries)
      (attemptFrom c s scope attempt q' retries) := by
  induction retries generalizing attempt q q' with
  | zero =>
    refine (annotates_invoke h s scope).bind fun x y hxy => ?_
    exact annotates_pure ⟨hxy.1, rfl, hxy.2⟩
  | succ retries ih =>
    refine (annotates_invoke h s scope).bind ?_
    rintro ⟨r, result⟩ ⟨r', _⟩ ⟨hr, rfl⟩
    match result with
    | .ok _ | .error (.mapping _) | .error (.validation _) | .error (.config _)
    | .error (.fault _) => exact annotates_pure ⟨hr, rfl, rfl⟩
    | .error (.step e) =>
      refine (annotates_noteRetry hr _).bind ?_
      rintro _ _ ⟨noted, noted', rfl, rfl, hnoted⟩
      dsimp only
      cases c.backoff attempt with
      | error f => exact annotates_pure ⟨hnoted, rfl, rfl⟩
      | ok delay =>
        exact annotates_request rfl fun _ => annotates_request rfl fun _ => ih hnoted (attempt + 1)

/-- The same step to go on with, or the same end. -/
inductive SameNext : Next → Next → Prop where
  | goOn {r r' : Progress} {scope : Scope} {order : Int} (progress : LeavesOut r r') :
      SameNext (.goOn r scope order) (.goOn r' scope order)
  | stop {r r' : Progress} {scope : Scope} {error : Option String} (progress : LeavesOut r r') :
      SameNext (.stop r scope error) (.stop r' scope error)

theorem SameAttempts.conclude {a a' : Attempted} (h : SameAttempts a a') (s : Step) (scope : Scope) :
    SameNext (conclude s scope a) (conclude s scope a') := by
  obtain ⟨r, attempts, result⟩ := a
  obtain ⟨r', _, _⟩ := a'
  obtain ⟨hr, rfl, rfl⟩ := h
  unfold Run.conclude
  cases result with
  | ok out => exact .goOn (hr.note _)
  | error f =>
    dsimp only [attemptsOf]
    split
    · exact .goOn (hr.note _)
    · exact .stop (hr.note _)

theorem annotates_advance (h : LeavesOut q q') (c : ExecutorConfig) (s : Step) (scope : Scope) :
    Annotates SameNext (advance c s scope q) (advance c s scope q') := by
  unfold advance
  split
  · refine (annotates_attemptFrom h c s scope 1 (retries s)).bind fun a a' ha => ?_
    exact annotates_pure (ha.conclude s scope)
  · exact annotates_pure (.goOn (h.note _))

/-- The same end of a run. -/
structure SameEnd (e e' : Ended) : Prop where
  progress : LeavesOut e.progress e'.progress
  scope : e.scope = e'.scope
  error : e.error = e'.error

theorem annotates_loop (h : LeavesOut q q') (c : ExecutorConfig) (plan : List Step) (scope : Scope)
    (order : Int) (fuel : Nat) :
    Annotates SameEnd (loop c plan scope q order fuel) (loop c plan scope q' order fuel) := by
  induction fuel generalizing q q' scope order with
  | zero =>
    unfold loop
    split <;> exact annotates_pure ⟨h, rfl, rfl⟩
  | succ fuel ih =>
    unfold loop
    split
    · exact annotates_pure ⟨h, rfl, rfl⟩
    · refine (annotates_advance h c _ scope).bind fun next next' hnext => ?_
      cases hnext with
      | goOn progress => exact ih progress _ _
      | stop progress => exact annotates_pure ⟨progress, rfl, rfl⟩

theorem annotates_steps (h : LeavesOut q q') (c : ExecutorConfig) (plan : List Step)
    (scope : Scope) :
    Annotates SameEnd (steps c plan scope q) (steps c plan scope q') := by
  cases plan with
  | nil => exact annotates_pure ⟨h, rfl, rfl⟩
  | cons s plan => exact annotates_loop h c (s :: plan) scope s.order _

/-- What two runs report alike. -/
structure SameReport (l b : RunResult) : Prop where
  outcomes : l.outcomes = b.outcomes
  scope : l.scope = b.scope
  error : l.error = b.error

theorem SameReport.status {l b : RunResult} (h : SameReport l b) : l.status = b.status := by
  unfold RunResult.status RunResult.isComplete
  rw [h.error]

/-- Both runs have a result, and report alike. -/
def SameRun (x y : Except Fault RunResult) : Prop :=
  ∃ l b, x = .ok l ∧ y = .ok b ∧ SameReport l b

/-- The log does not refuse the end of a run. -/
theorem annotates_finish {e : LogEntry} (isOpen : e.isTerminal = false) (end_ : Journal.Ending)
    (w : Option Workflow) :
    Annotates (fun x (_ : Unit) => ∃ e', x = .ok e') (Journal.finish e end_ w) (pure ()) := by
  unfold Journal.finish
  rw [isOpen, if_neg Bool.false_ne_true]
  refine annotates_booking rfl fun updated => ?_
  dsimp only
  split
  · exact annotates_booking rfl fun _ => annotates_pure ⟨_, rfl⟩
  · exact annotates_booking rfl fun _ => annotates_pure ⟨_, rfl⟩

theorem annotates_report {ended ended' : Ended} (h : SameEnd ended ended') (r : InboundRecord)
    (p : Pipeline) (w : Option Workflow) :
    Annotates SameRun (report r p w ended) (report r p w ended') := by
  obtain ⟨reached, scope, error⟩ := ended
  obtain ⟨_, _, _⟩ := ended'
  obtain ⟨⟨⟨e, hentry, hopen⟩, rfl⟩, rfl, rfl⟩ := h
  dsimp only at hentry
  -- without a log there is nothing to do before the result
  show Annotates SameRun (report r p w ⟨reached, scope, error⟩)
    ((pure () >>= fun _ => pure ()) >>= fun _ =>
      pure (.ok ⟨reached.outcomes, scope, none, error⟩))
  unfold report close
  simp only [hentry]
  refine Annotates.bind (R := fun x _ => ∃ e', x = .ok (some e'))
    ((annotates_finish hopen _ w).bind ?_) ?_
  · rintro _ _ ⟨e', rfl⟩
    exact annotates_pure ⟨e', rfl⟩
  · rintro _ _ ⟨e', rfl⟩
    exact annotates_pure ⟨_, _, rfl, rfl, rfl, rfl, rfl⟩

/-- From where its entry is open a run goes as it goes without a log. -/
theorem annotates_proceed (c : ExecutorConfig) (p : Pipeline) (r : InboundRecord)
    (w : Option Workflow) {e : LogEntry} (isOpen : e.isTerminal = false) :
    Annotates SameRun (proceed c p r w (.ok (some e))) (proceed c p r w (.ok none)) :=
  (annotates_steps ⟨⟨e, rfl, isOpen⟩, rfl⟩ c p.plan _).bind fun _ _ hended =>
    annotates_report hended r p w

/-- An entry that can be started is open. -/
theorem annotates_start (r : InboundRecord) (p : Pipeline) (w : Option Workflow) :
    Annotates (fun x (_ : Unit) => ∀ e, x = .ok e → e.isTerminal = false) (Journal.start r p w)
      (pure ()) := by
  refine annotates_booking (q := .now) rfl fun created => ?_
  cases Journal.expiry created (w.map (·.header.retentionHours)) with
  | error f =>
    refine annotates_pure ?_
    rintro e ⟨⟩
  | ok expires =>
    refine annotates_booking (q := .drawId) rfl fun id =>
      annotates_booking (q := .append _) rfl fun _ => annotates_pure ?_
    rintro e ⟨⟩
    rfl

section Worlds

variable {σ τ : Type} {p : Pipeline} {r : InboundRecord} {w : Option Workflow} {a : Adapter τ σ}
  {world : World σ}

/-- Two runs from one record. -/
theorem run_without_entry (c : ExecutorConfig) {e : LogEntry}
    (started : (world.carryOut a (Journal.start r p w)).1 = .ok e) :
    SameRun (world.carryOut a (p.run c true r w)).1 (world.carryOut a (p.run c false r w)).1 ∧
      (world.carryOut a (p.run c true r w)).2.BesidesBooks
        (world.carryOut a (p.run c false r w)).2 ∧
      felt (Activity.events (World.reply a) (p.run c true r w) world) =
        felt (Activity.events (World.reply a) (p.run c false r w) world) := by
  obtain ⟨isOpen, besides, quiet⟩ := World.carryOut_of_annotates (annotates_start r p w) a
    (⟨world.drawn, world.log, rfl⟩ : world.BesidesBooks world)
  have hopened : world.carryOut a (openEntry true r p w) =
      (.ok (some e), (world.carryOut a (Journal.start r p w)).2) := by
    unfold openEntry
    rw [if_pos rfl, World.carryOut, carryOut_bind]
    exact congrArg (fun x => (x.map some, _)) started
  have hevents : felt (Activity.events (World.reply a) (openEntry true r p w) world) = [] := by
    unfold openEntry
    rw [if_pos rfl, events_bind, felt_append, quiet]
    rfl
  obtain ⟨related, after, same⟩ := World.carryOut_of_annotates
    (annotates_proceed c p r w (isOpen e started)) a besides
  have hlogged : world.carryOut a (p.run c true r w) =
      (world.carryOut a (Journal.start r p w)).2.carryOut a (proceed c p r w (.ok (some e))) := by
    rw [run_eq_proceed, World.carryOut, carryOut_bind]
    exact congrArg (fun x => World.carryOut a (proceed c p r w x.1) x.2) hopened
  have hbare : p.run c false r w = proceed c p r w (.ok none) := run_eq_proceed c false p r w
  have hcourse : Activity.events (World.reply a) (p.run c true r w) world =
      Activity.events (World.reply a) (openEntry true r p w) world ++
        Activity.events (World.reply a) (proceed c p r w (.ok (some e)))
          (world.carryOut a (Journal.start r p w)).2 := by
    rw [run_eq_proceed, events_bind]
    exact congrArg (fun x => _ ++ Activity.events (World.reply a) (proceed c p r w x.1) x.2) hopened
  rw [hlogged, hbare, hcourse, felt_append, hevents, List.nil_append]
  exact ⟨related, after, same⟩

end Worlds

/-- A run that is logged gives what the same run gives without a log, if its entry can be started: the same
status, error, outcomes and scope, after the same calls and the same time. -/
theorem run_without_log {τ σ : Type} (c : ExecutorConfig) (p : Pipeline) (w : Option Workflow)
    (given : Activity InboundRecord) (a : Adapter τ σ) (world : World σ)
    (started : ∃ e, (world.carryOut a (given >>= fun r => Journal.start r p w)).1 = .ok e) :
    let logged := given >>= fun r => p.run c true r w
    let bare := given >>= fun r => p.run c false r w
    ∃ l b, (world.carryOut a logged).1 = .ok l ∧ (world.carryOut a bare).1 = .ok b ∧
      l.status = b.status ∧ l.error = b.error ∧ l.outcomes = b.outcomes ∧ l.scope = b.scope ∧
      calls (Activity.events (World.reply a) logged world) =
        calls (Activity.events (World.reply a) bare world) ∧
      (world.carryOut a logged).2.timer = (world.carryOut a bare).2.timer ∧
      (world.carryOut a logged).2.destinations = (world.carryOut a bare).2.destinations := by
  intro logged bare
  obtain ⟨e, started⟩ := started
  rw [World.carryOut, carryOut_bind] at started
  obtain ⟨⟨l, b, hl, hb, report⟩, ⟨drawn, log, after⟩, same⟩ := run_without_entry c started
  have hlogged : world.carryOut a logged = _ := carryOut_bind _ _ _ _
  have hbare : world.carryOut a bare = _ := carryOut_bind _ _ _ _
  have hcalls : calls (Activity.events (World.reply a) logged world) =
      calls (Activity.events (World.reply a) bare world) := by
    rw [events_bind, events_bind, calls_append, calls_append]
    refine congrArg (calls _ ++ ·) ?_
    rw [← calls_felt, same, calls_felt]
  rw [hlogged, hbare]
  refine ⟨l, b, hl, hb, report.status, report.error, report.outcomes, report.scope, hcalls, ?_, ?_⟩
  · exact (congrArg World.timer after).symm
  · exact (congrArg World.destinations after).symm

/-- A pipeline whose destination is down for two calls tries it as often without a log. -/
theorem patient_without_log :
    (∃ e, (recovering.carryOut Recording.adapter (Journal.start reading patient none)).1 = .ok e) ∧
    ∃ l b, (recovering.carryOut Recording.adapter (patient.run {} true reading none)).1 = .ok l ∧
      (recovering.carryOut Recording.adapter (patient.run {} false reading none)).1 = .ok b ∧
      l.outcomes = b.outcomes ∧ b.outcomes.map (·.attempts) = [3] ∧
      (recovering.carryOut Recording.adapter (patient.run {} true reading none)).2.timer =
        (recovering.carryOut Recording.adapter (patient.run {} false reading none)).2.timer := by
  have started : ∃ e, (recovering.carryOut Recording.adapter
      (pure reading >>= fun r => Journal.start r patient none)).1 = .ok e := ⟨_, rfl⟩
  obtain ⟨l, b, hl, hb, -, -, houtcomes, -, -, htimer, -⟩ :=
    run_without_log {} patient none (pure reading) Recording.adapter recovering started
  obtain ⟨result, hresult, hattempts⟩ : ∃ result,
      (recovering.carryOut Recording.adapter (patient.run {} false reading none)).1 = .ok result ∧
        result.outcomes.map (·.attempts) = [3] := by
    unfold Pipeline.run Pipeline.plan
    rw [Pipeline.sortedSteps_eq (p := patient) (by decide)]
    decide +kernel
  cases hb.symm.trans hresult
  exact ⟨started, l, b, hl, hb, houtcomes, hattempts, htimer⟩

end Run
end Conveyor
