import Conveyor.Proofs.Run.Journal
import Conveyor.Proofs.Run.Itinerary

/-!
# Runs with a higher limit

How many steps a run may take matters only to a run that wants to take more. Under a higher limit it
asks for the same things up to where the lower one stops it (`Begins`), and from there on it only adds
outcomes and calls (`Resumes`). A run that is not stopped stays as it is.
-/

namespace Conveyor

/-- The same settings with another limit for the steps of a run. -/
def ExecutorConfig.withLimit (c : ExecutorConfig) (limit : Int) : ExecutorConfig :=
  { c with maxTransitions := limit }

namespace Activity

variable {α β σ : Type} {R : α → Activity β → Prop}

/-- The second activity begins with the first: it asks for the same things until the first is done,
and what is then left of it is related to the result. -/
inductive Begins (R : α → Activity β → Prop) : Activity α → Activity β → Prop where
  | done {a : α} {rest : Activity β} (related : R a rest) : Begins R (.done a) rest
  | ask (q : Ask) {next : q.Reply → Activity α} {next' : q.Reply → Activity β}
      (rest : ∀ r, Begins R (next r) (next' r)) : Begins R (.ask q next) (.ask q next')

/-- Two ways to go on after the same part. Only the results that the part can have matter. -/
theorem begins_bind {γ : Type} {t : Activity γ} {f : γ → Activity α} {g : γ → Activity β}
    (rest : ∀ events c, Course t events c → Begins R (f c) (g c)) :
    Begins R (t >>= f) (t >>= g) := by
  induction t with
  | done c => exact rest [] c (.done c)
  | ask q next ih =>
    exact .ask q fun r => ih r fun events c course => rest (⟨q, r⟩ :: events) c (.ask r course)

/-- Surroundings treat the second activity as the first until that is done. -/
theorem Begins.exists_rest {t : Activity α} {t' : Activity β} (h : Begins R t t')
    (s : Surroundings σ) (st : σ) :
    ∃ rest, R (carryOut s t st).1 rest ∧
      carryOut s t' st = carryOut s rest (carryOut s t st).2 ∧
      events s t' st = events s t st ++ events s rest (carryOut s t st).2 := by
  induction h generalizing st with
  | done related => exact ⟨_, related, rfl, rfl⟩
  | ask q _ ih =>
    obtain ⟨rest, related, hresult, hevents⟩ := ih (s q st).1 (s q st).2
    refine ⟨rest, related, hresult, ?_⟩
    rw [events, events, hevents]
    rfl

end Activity

namespace Run

open Activity

variable {c : ExecutorConfig} {limit limit' : Int} {s : Step} {plan : List Step} {scope : Scope}
  {p : Progress} {order : Int} {events : List Event} {ended : Ended}

/-! ## Steps -/

theorem attempt_withLimit (c : ExecutorConfig) (limit : Int) (s : Step) (scope : Scope)
    (p : Progress) : attempt (c.withLimit limit) s scope p = attempt c s scope p := by
  have hfrom : ∀ repeats number q, attemptFrom (c.withLimit limit) s scope number q repeats =
      attemptFrom c s scope number q repeats := by
    intro repeats
    induction repeats with
    | zero => exact fun _ _ => rfl
    | succ repeats ih =>
      intro number q
      rw [attemptFrom, attemptFrom]
      simp only [ih]
      rfl
  exact hfrom (retries s) 1 p

theorem advance_withLimit (c : ExecutorConfig) (limit : Int) (s : Step) (scope : Scope)
    (p : Progress) : advance (c.withLimit limit) s scope p = advance c s scope p := by
  unfold advance
  rw [attempt_withLimit]

/-- A failed step is reported in other words than a run that takes too many steps. -/
theorem abortText_ne_exhaustion (s : Step) (f : Failure) (c : ExecutorConfig) :
    abortText s f ≠ exhaustion c := by
  intro h
  have hfirst := congrArg (fun text : String => text.toList.head?) h
  have hstep : (toString "Step ").toList.head? = some 'S' := rfl
  have hrun : (toString "run exceeded ").toList.head? = some 'r' := rfl
  simp [abortText, exhaustion, hstep, hrun] at hfirst

/-- A step adds its outcome, and if it ends the run, then with a failure. -/
theorem outcomes_of_advance {next : Next} (h : Course (advance c s scope p) events next) :
    next.progress.outcomes.length = p.outcomes.length + 1 ∧
      ∀ q scope' error, next = .stop q scope' error → ∃ f, error = some (abortText s f) := by
  obtain ⟨v, rfl, rfl, rfl, rfl, happens, rfl⟩ := visit_of_course h
  obtain ⟨outcome, ends⟩ := Visit.ends happens
  constructor
  · simp [(Visit.leaves happens ends).1]
  · intro q scope' error hstop
    rw [hstop] at ends
    cases ends with
    | @failed _ f => exact ⟨f, rfl⟩

/-- A run only adds outcomes. -/
theorem outcomes_of_loop {fuel : Nat} (h : Course (loop c plan scope p order fuel) events ended) :
    p.outcomes <+: ended.progress.outcomes := by
  obtain ⟨visits, trail, -⟩ := trail_of_course h
  obtain ⟨outcomes, houtcomes, -⟩ := trail.itinerary
  exact ⟨outcomes, houtcomes.symm⟩

/-! ## Plans -/

/-- What is left to do under a higher limit when a run under the lower one has ended: nothing, unless
it was stopped for taking too many steps. Then it has so many outcomes, and whatever is left keeps
them. -/
inductive Resumes (c : ExecutorConfig) (total : Nat) (ended : Ended) : Activity Ended → Prop where
  | settled (unstopped : ended.error ≠ some (exhaustion c)) : Resumes c total ended (pure ended)
  | further {rest : Activity Ended} (stopped : ended.error = some (exhaustion c))
      (spent : ended.progress.outcomes.length = total)
      (kept : ∀ events later, Course rest events later →
        ended.progress.outcomes <+: later.progress.outcomes) :
      Resumes c total ended rest

/-- From the same place on, the run under the higher limit begins with the run under the lower one. -/
theorem begins_loop (c : ExecutorConfig) (limit limit' : Int) (plan : List Step) (scope : Scope)
    (p : Progress) (order : Int) {fuel fuel' : Nat} (hle : fuel ≤ fuel') :
    Begins (Resumes (c.withLimit limit) (p.outcomes.length + fuel))
      (loop (c.withLimit limit) plan scope p order fuel)
      (loop (c.withLimit limit') plan scope p order fuel') := by
  -- every step that is taken adds an outcome, so outcomes and steps left have the same sum throughout
  induction fuel generalizing fuel' scope p order with
  | zero =>
    cases hstep : stepAt? plan order with
    | none =>
      rw [loop_of_absent hstep, loop_of_absent hstep]
      exact .done (.settled (by simp))
    | some s =>
      have hstopped : loop (c.withLimit limit) plan scope p order 0 =
          pure ⟨p, scope, some (exhaustion (c.withLimit limit))⟩ := by
        simp only [loop, hstep]
        rfl
      rw [hstopped]
      exact .done (.further rfl rfl fun _ _ course => outcomes_of_loop course)
  | succ fuel ih =>
    obtain ⟨fuel', rfl⟩ : ∃ k, fuel' = k + 1 := ⟨fuel' - 1, by omega⟩
    cases hstep : stepAt? plan order with
    | none =>
      rw [loop_of_absent hstep, loop_of_absent hstep]
      exact .done (.settled (by simp))
    | some s =>
      simp only [loop, hstep, advance_withLimit]
      apply begins_bind
      intro events next course
      obtain ⟨hlength, hstop⟩ := outcomes_of_advance course
      cases next with
      | goOn q scope' order' =>
        have hspent : p.outcomes.length + (fuel + 1) = q.outcomes.length + fuel := by
          rw [Next.progress_goOn] at hlength
          omega
        rw [hspent]
        exact ih scope' q order' (by omega)
      | stop q scope' error =>
        obtain ⟨f, rfl⟩ := hstop q scope' error rfl
        apply Begins.done
        apply Resumes.settled
        simpa using abortText_ne_exhaustion s f _

/-- A plan is gone through under two limits, by a run without outcomes so far. -/
theorem begins_steps (c : ExecutorConfig) {limit limit' : Int} (hle : limit ≤ limit')
    (plan : List Step) (scope : Scope) (entry : Option LogEntry) :
    Begins (Resumes (c.withLimit limit) limit.toNat)
      (steps (c.withLimit limit) plan scope { entry })
      (steps (c.withLimit limit') plan scope { entry }) := by
  cases plan with
  | nil => exact .done (.settled (by simp))
  | cons first rest =>
    have hbegins := begins_loop c limit limit' (first :: rest) scope { entry } first.order
      (Int.toNat_le_toNat hle)
    rw [List.length_nil, Nat.zero_add] at hbegins
    exact hbegins

/-! ## Whole runs -/

variable {σ : Type} {logged : Bool} {pipeline : Pipeline} {r : InboundRecord} {w : Option Workflow}
  {entry : Option LogEntry} {surroundings : Surroundings σ} {st : σ}

/-- The end of a run: the entry is closed and the result is put together. -/
def report (r : InboundRecord) (p : Pipeline) (w : Option Workflow) (ended : Ended) :
    Activity (Except Fault RunResult) := do
  match ← close r p w ended with
  | .error f => pure (.error f)
  | .ok entry => pure (.ok ⟨ended.progress.outcomes, ended.scope, entry, ended.error⟩)

/-- A run from where its entry is open. -/
def proceed (c : ExecutorConfig) (p : Pipeline) (r : InboundRecord) (w : Option Workflow) :
    Except Fault (Option LogEntry) → Activity (Except Fault RunResult)
  | .error f => pure (.error f)
  | .ok entry => steps c p.plan (Scope.start r.payload) { entry } >>= report r p w

theorem run_eq_proceed (c : ExecutorConfig) (logged : Bool) (p : Pipeline) (r : InboundRecord)
    (w : Option Workflow) : p.run c logged r w = openEntry logged r p w >>= proceed c p r w := by
  unfold Pipeline.run
  congr

/-- There is a result if the entry is still open at the end. -/
theorem exists_report (r : InboundRecord) (p : Pipeline) (w : Option Workflow) {ended : Ended}
    (isOpen : ∀ e, ended.progress.entry = some e → e.isTerminal = false)
    (surroundings : Surroundings σ) (st : σ) :
    ∃ entry, (carryOut surroundings (report r p w ended) st).1 =
      .ok ⟨ended.progress.outcomes, ended.scope, entry, ended.error⟩ := by
  have course := course_events surroundings (close r p w ended) st
  obtain ⟨entry, hclosed⟩ := exists_of_close isOpen course
  refine ⟨entry, ?_⟩
  rw [report, carryOut_bind, hclosed]
  rfl

theorem calls_report (r : InboundRecord) (p : Pipeline) (w : Option Workflow) (ended : Ended)
    (surroundings : Surroundings σ) (st : σ) :
    calls (Activity.events surroundings (report r p w ended) st) = [] := by
  apply calls_eq_nil _ (course_events surroundings (report r p w ended) st)
  apply (within_close r p w ended).andThen
  intro closed
  cases closed <;> exact within_pure

/-- The entry of a run is open until the end. -/
theorem open_of_steps {plan : List Step} {ended : Ended}
    (isOpen : ∀ e, p.entry = some e → e.isTerminal = false)
    (h : Course (steps c plan scope p) events ended) :
    ∀ e, ended.progress.entry = some e → e.isTerminal = false := by
  obtain ⟨visits, trail, -⟩ := trail_of_steps h
  obtain ⟨versions, -, retries⟩ := retries_of_trail trail
  exact retries.all_open isOpen

/-- What a run under a limit and a run under a higher one have to do with each other. -/
structure Raised (c : ExecutorConfig) (limit : Int) (surroundings : Surroundings σ) (st : σ)
    (low high : Activity (Except Fault RunResult)) : Prop where
  /-- A run that is not stopped goes the same way. -/
  same : ¬ Stopped (c.withLimit limit) (carryOut surroundings low st).1 →
    carryOut surroundings high st = carryOut surroundings low st ∧
      Activity.events surroundings high st = Activity.events surroundings low st
  /-- A run that is stopped has taken all the steps that it may take, and goes on. -/
  further : ∀ result, (carryOut surroundings low st).1 = .ok result →
    result.error = some (exhaustion (c.withLimit limit)) →
    (result.outcomes.length : Int) = max limit 0 ∧
      calls (Activity.events surroundings low st) <+:
        calls (Activity.events surroundings high st) ∧
      ∃ result', (carryOut surroundings high st).1 = .ok result' ∧
        result.outcomes <+: result'.outcomes

/-- The same part before both. -/
theorem Raised.after {α : Type} {limit : Int} {t : Activity α}
    {low high : α → Activity (Except Fault RunResult)}
    (h : Raised c limit surroundings (carryOut surroundings t st).2
      (low (carryOut surroundings t st).1) (high (carryOut surroundings t st).1)) :
    Raised c limit surroundings st (t >>= low) (t >>= high) where
  same := by
    intro hgoes
    rw [carryOut_bind] at hgoes
    obtain ⟨hresult, hevents⟩ := h.same hgoes
    rw [carryOut_bind, carryOut_bind, events_bind, events_bind, hresult, hevents]
    exact ⟨rfl, rfl⟩
  further := by
    intro result hresult herror
    rw [carryOut_bind] at hresult
    obtain ⟨hlength, hcalls, result', hresult', hprefix⟩ := h.further result hresult herror
    refine ⟨hlength, ?_, result', ?_, hprefix⟩
    · rw [events_bind, events_bind, calls_append, calls_append]
      exact (List.prefix_append_right_inj _).mpr hcalls
    · rw [carryOut_bind]
      exact hresult'

/-- Two ways through a plan with an open entry, the second of which begins with the first. -/
theorem raised_of_begins {limit : Int} {t t' : Activity Ended}
    (begins : Begins (Resumes (c.withLimit limit) limit.toNat) t t')
    (isOpen : ∀ events ended, Course t events ended →
      ∀ e, ended.progress.entry = some e → e.isTerminal = false)
    (isOpen' : ∀ events ended, Course t' events ended →
      ∀ e, ended.progress.entry = some e → e.isTerminal = false) :
    Raised c limit surroundings st (t >>= report r pipeline w) (t' >>= report r pipeline w) := by
  obtain ⟨rest, resumes, hended', hevents⟩ := begins.exists_rest surroundings st
  have hopen := isOpen _ _ (course_events surroundings t st)
  have hopen' := isOpen' _ _ (course_events surroundings t' st)
  rw [hended'] at hopen'
  generalize hended : carryOut surroundings t st = reached at *
  obtain ⟨ended, later⟩ := reached
  obtain ⟨entry, hreport⟩ := exists_report r pipeline w hopen surroundings later
  constructor
  · intro hgoes
    rw [carryOut_bind, hended] at hgoes
    cases resumes with
    | settled =>
      rw [carryOut_bind, carryOut_bind, events_bind, events_bind, hended', hended, hevents,
        List.append_assoc]
      exact ⟨rfl, rfl⟩
    | further stopped => exact absurd ⟨_, hreport, stopped⟩ hgoes
  · intro result hresult herror
    rw [carryOut_bind, hended, hreport] at hresult
    cases hresult
    cases resumes with
    | settled unstopped => exact absurd herror unstopped
    | further _ spent kept =>
      refine ⟨by rw [spent, Int.toNat_eq_max], ?_, ?_⟩
      · rw [events_bind, events_bind, calls_append, calls_append, hended, calls_report, hevents,
          calls_append, List.append_nil, List.append_assoc]
        exact List.prefix_append _ _
      · obtain ⟨entry', hreport'⟩ := exists_report r pipeline w hopen' surroundings
          (carryOut surroundings rest later).2
        rw [carryOut_bind, hended']
        exact ⟨_, hreport', kept _ _ (course_events surroundings rest later)⟩

/-- A run has no more outcomes than it may take steps. A run under a higher limit is the same if the
lower one does not stop it. If it does, then it has so many outcomes, and they are the first ones under
the higher limit, as its calls are the first ones. -/
theorem raised_limit_continues (surroundings : Surroundings σ) (st : σ) (c : ExecutorConfig)
    (logged : Bool) (p : Pipeline) (r : InboundRecord) (w : Option Workflow) {limit limit' : Int}
    (hle : limit ≤ limit') :
    Raised c limit surroundings st (p.run (c.withLimit limit) logged r w)
        (p.run (c.withLimit limit') logged r w) ∧
      ∀ result, (carryOut surroundings (p.run (c.withLimit limit) logged r w) st).1 = .ok result →
        (result.outcomes.length : Int) ≤ max limit 0 := by
  constructor
  · rw [run_eq_proceed, run_eq_proceed]
    apply Raised.after
    have opening := course_events surroundings (openEntry logged r p w) st
    generalize (carryOut surroundings (openEntry logged r p w) st).1 = opened at *
    cases opened with
    | error f =>
      constructor
      · exact fun _ => ⟨rfl, rfl⟩
      · intro result hresult
        cases hresult
    | ok entry =>
      have isOpen := all_open_of_openEntry opening
      apply raised_of_begins (begins_steps c hle p.plan (Scope.start r.payload) entry)
      · exact fun _ _ course => open_of_steps isOpen course
      · exact fun _ _ course => open_of_steps isOpen course
  · intro result returned
    have course := course_events surroundings (p.run (c.withLimit limit) logged r w) st
    rw [returned] at course
    obtain ⟨parts⟩ := exists_parts course
    obtain ⟨itinerary, -⟩ := parts.itinerary
    have hlength := itinerary.told.length_eq
    have hbounded : parts.visits.length ≤ limit.toNat := itinerary.bounded
    omega

theorem circle_continues :
    (∃ result, (carryOut (answering (.result { success := false }))
          (circle.run (({} : ExecutorConfig).withLimit 3) false reading none) ()).1 = .ok result ∧
        result.outcomes.map (·.order) = [1, 1, 1] ∧
        ∃ result', (carryOut (answering (.result { success := false }))
            (circle.run (({} : ExecutorConfig).withLimit 5) false reading none) ()).1 =
              .ok result' ∧
          result.outcomes <+: result'.outcomes) ∧
      carryOut (answering (.result { success := false }))
          (detour.run (({} : ExecutorConfig).withLimit 5) false reading none) () =
        carryOut (answering (.result { success := false }))
          (detour.run (({} : ExecutorConfig).withLimit 3) false reading none) () := by
  constructor
  · obtain ⟨result, returned, horders, stopped⟩ :
        ∃ result, (carryOut (answering (.result { success := false }))
            (circle.run (({} : ExecutorConfig).withLimit 3) false reading none) ()).1 = .ok result ∧
          result.outcomes.map (·.order) = [1, 1, 1] ∧
          result.error = some (exhaustion (({} : ExecutorConfig).withLimit 3)) := by
      unfold Pipeline.run Pipeline.plan
      rw [show circle.sortedSteps = circle.steps from Pipeline.sortedSteps_eq (by decide)]
      decide +kernel
    obtain ⟨raised, -⟩ := raised_limit_continues (answering (.result { success := false })) () {}
      false circle reading none (show (3 : Int) ≤ 5 by decide)
    obtain ⟨-, -, further⟩ := raised.further result returned stopped
    exact ⟨result, returned, horders, further⟩
  · obtain ⟨raised, -⟩ := raised_limit_continues (answering (.result { success := false })) () {}
      false detour reading none (show (3 : Int) ≤ 5 by decide)
    have hfits : ∃ result, (carryOut (answering (.result { success := false }))
        (detour.run (({} : ExecutorConfig).withLimit 3) false reading none) ()).1 = .ok result ∧
          result.error = none := by
      unfold Pipeline.run Pipeline.plan
      rw [show detour.sortedSteps = detour.steps from Pipeline.sortedSteps_eq (by decide)]
      decide +kernel
    obtain ⟨result, returned, unstopped⟩ := hfits
    refine (raised.same ?_).1
    rintro ⟨result', returned', stopped⟩
    rw [returned] at returned'
    cases returned'
    rw [unstopped] at stopped
    cases stopped

end Run
end Conveyor
