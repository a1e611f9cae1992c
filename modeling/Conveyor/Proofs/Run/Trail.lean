import Conveyor.Proofs.Run.Attempt

/-!
# Trails

A run as the list of its visits to the steps of a plan. A visit is the step, the state before it,
what was asked for during it, and what came of its attempts; where the run goes from there is for
`conclude` to say. Every run has a trail (`trail_of_course`), so what a run keeps is proved by
induction on trails, and `Visit.ends` lists the ways in which a single visit can end.
-/

namespace Conveyor.Run

open Activity

/-- The bookkeeping of a run where it stands. -/
def Next.progress : Next → Progress
  | .goOn p _ _ => p
  | .stop p _ _ => p

@[simp] theorem Next.progress_goOn (p : Progress) (scope : Scope) (order : Int) :
    (Next.goOn p scope order).progress = p := rfl

@[simp] theorem Next.progress_stop (p : Progress) (scope : Scope) (error : Option String) :
    (Next.stop p scope error).progress = p := rfl

/-- A step of a run as it went. A step that was passed over has no attempts. -/
structure Visit where
  step : Step
  scope : Scope
  before : Progress
  events : List Event
  attempted : Option Attempted

namespace Visit

variable {c : ExecutorConfig} {v : Visit}

/-- The visit is one that the step can have. -/
def Happens (c : ExecutorConfig) (v : Visit) : Prop :=
  match v.attempted with
  | none => v.step.isActive = false ∧ v.events = []
  | some a => v.step.isActive = true ∧ Course (attempt c v.step v.scope v.before) v.events a

/-- Where the run stands after the visit. -/
def next (v : Visit) : Next :=
  match v.attempted with
  | none =>
    .goOn (note v.before ⟨v.step.order, v.step.name, .skipped, 0, none⟩) v.scope (v.step.order + 1)
  | some a => conclude v.step v.scope a

/-- The outcome of a visit that ended in the given state. -/
def outcomeAs (v : Visit) (state : StepState) (attempts : Nat) (error : Option String) :
    StepOutcome :=
  ⟨v.step.order, v.step.name, state, attempts, error⟩

/-- How a visit ends, with the outcome that it adds and where the run stands then. -/
inductive Ends (v : Visit) : StepOutcome → Next → Prop where
  | passedOver (inactive : v.step.isActive = false) (untried : v.attempted = none)
      (quiet : v.events = []) :
      Ends v (v.outcomeAs .skipped 0 none)
        (.goOn (note v.before (v.outcomeAs .skipped 0 none)) v.scope (v.step.order + 1))
  | succeeded {a : Attempted} {out : Output} (tried : v.attempted = some a)
      (ok : a.result = .ok out) :
      Ends v (v.outcomeAs .succeeded a.attempts none)
        (.goOn (note a.progress (v.outcomeAs .succeeded a.attempts none))
          (bindOutput v.step v.scope out.value) (successor v.step out.holds))
  | skipped {a : Attempted} {e : StepError} (tried : v.attempted = some a)
      (failure : a.result = .error (.step e)) (policy : v.step.onError = .skip) :
      Ends v (v.outcomeAs .skipped a.attempts (some e.message))
        (.goOn (note a.progress (v.outcomeAs .skipped a.attempts (some e.message))) v.scope
          (v.step.order + 1))
  | failed {a : Attempted} {f : Failure} (tried : v.attempted = some a)
      (failure : a.result = .error f) (policy : ∀ e, f = .step e → v.step.onError ≠ .skip) :
      Ends v (v.outcomeAs .failed (attemptsOf a f) (some (outcomeText f)))
        (.stop (note a.progress (v.outcomeAs .failed (attemptsOf a f) (some (outcomeText f))))
          v.scope (some s!"Step {v.step.order} ({v.step.name}): {errorText f}"))

theorem ends (h : v.Happens c) : ∃ outcome, v.Ends outcome v.next := by
  unfold Happens at h
  unfold next
  cases ha : v.attempted with
  | none =>
    rw [ha] at h
    exact ⟨_, .passedOver h.1 ha h.2⟩
  | some a =>
    cases hr : a.result with
    | ok out =>
      simp only [conclude, hr]
      exact ⟨_, .succeeded ha hr⟩
    | error f =>
      simp only [conclude, hr]
      by_cases hp : (∃ e, f = .step e) ∧ v.step.onError = .skip
      · obtain ⟨⟨e, rfl⟩, hskip⟩ := hp
        simp only [hskip]
        exact ⟨_, .skipped ha hr hskip⟩
      · have hpolicy : ∀ e, f = .step e → v.step.onError ≠ .skip :=
          fun e he hskip => hp ⟨⟨e, he⟩, hskip⟩
        refine ⟨v.outcomeAs .failed (attemptsOf a f) (some (outcomeText f)), ?_⟩
        split
        · rename_i hskip
          exact absurd hskip (hpolicy _ rfl)
        · exact .failed ha hr hpolicy

/-- A visit leaves versions of the entry behind, and adds its outcome. -/
theorem leaves (h : v.Happens c) {outcome : StepOutcome} (he : v.Ends outcome v.next) :
    v.next.progress.outcomes = v.before.outcomes ++ [outcome] ∧
      ∃ versions, logOps v.events = versions.map .update ∧
        Retries v.before.entry versions v.next.progress.entry := by
  generalize v.next = next at he
  cases he with
  | passedOver _ _ quiet => exact ⟨rfl, [], by rw [quiet]; rfl, .refl _⟩
  | succeeded tried _ | skipped tried _ _ | failed tried _ _ =>
    rw [Happens, tried] at h
    obtain ⟨versions, left⟩ := leaves_attempt h.2
    exact ⟨by simp [Next.progress, note, left.outcomes], versions, left.logOps, left.retries⟩

end Visit

/-- What a run that takes too many steps is stopped with. -/
def exhaustion (c : ExecutorConfig) : String :=
  s!"run exceeded {c.maxTransitions} step transitions"

/-- A run that was stopped for taking too many steps. -/
def Stopped (c : ExecutorConfig) (out : Except Fault RunResult) : Prop :=
  ∃ result, out = .ok result ∧ result.error = some (exhaustion c)

/-- The visits of a run through a plan, from the step of a number to the end of the run. -/
inductive Trail (c : ExecutorConfig) (plan : List Step) :
    Nat → Scope → Progress → Int → List Visit → Ended → Prop where
  | leave {fuel : Nat} {scope : Scope} {p : Progress} {order : Int}
      (absent : stepAt? plan order = none) :
      Trail c plan fuel scope p order [] ⟨p, scope, none⟩
  | exhaust {scope : Scope} {p : Progress} {order : Int} {s : Step}
      (present : stepAt? plan order = some s) :
      Trail c plan 0 scope p order [] ⟨p, scope, some (exhaustion c)⟩
  | goOn {fuel : Nat} {v : Visit} {order order' : Int} {p' : Progress} {scope' : Scope}
      {visits : List Visit} {ended : Ended} (present : stepAt? plan order = some v.step)
      (happens : v.Happens c) (next : v.next = .goOn p' scope' order')
      (rest : Trail c plan fuel scope' p' order' visits ended) :
      Trail c plan (fuel + 1) v.scope v.before order (v :: visits) ended
  | stop {fuel : Nat} {v : Visit} {order : Int} {p' : Progress} {scope' : Scope}
      {error : Option String} (present : stepAt? plan order = some v.step)
      (happens : v.Happens c) (next : v.next = .stop p' scope' error) :
      Trail c plan (fuel + 1) v.scope v.before order [v] ⟨p', scope', error⟩

variable {c : ExecutorConfig} {plan : List Step} {scope : Scope} {p : Progress} {order : Int}
  {fuel : Nat} {events : List Event} {ended : Ended}

/-- A run that does not stand at a step is over. -/
theorem loop_of_absent (absent : stepAt? plan order = none) (fuel : Nat) :
    loop c plan scope p order fuel = pure ⟨p, scope, none⟩ := by
  cases fuel <;> simp only [loop, absent]

/-- Taking a step of the plan is a visit. -/
theorem visit_of_course {s : Step} {next : Next}
    (h : Course (advance c s scope p) events next) :
    ∃ v : Visit, v.step = s ∧ v.scope = scope ∧ v.before = p ∧ v.events = events ∧
      v.Happens c ∧ v.next = next := by
  unfold advance at h
  split at h
  · rename_i hactive
    obtain ⟨before, after, a, rfl, taken, rest⟩ := course_bind_iff.mp h
    obtain ⟨rfl, rfl⟩ := course_pure_iff.mp rest
    rw [List.append_nil]
    exact ⟨⟨s, scope, p, before, some a⟩, rfl, rfl, rfl, rfl, ⟨hactive, taken⟩, rfl⟩
  · rename_i hactive
    obtain ⟨rfl, rfl⟩ := course_pure_iff.mp h
    exact ⟨⟨s, scope, p, [], none⟩, rfl, rfl, rfl, rfl, ⟨by simpa using hactive, rfl⟩, rfl⟩

/-- Every way through a plan has a trail. -/
theorem trail_of_course (h : Course (loop c plan scope p order fuel) events ended) :
    ∃ visits, Trail c plan fuel scope p order visits ended ∧
      events = visits.flatMap Visit.events := by
  induction fuel generalizing scope p order events with
  | zero =>
    unfold loop at h
    split at h
    · rename_i habsent
      obtain ⟨rfl, rfl⟩ := course_pure_iff.mp h
      exact ⟨[], .leave habsent, rfl⟩
    · rename_i hpresent
      obtain ⟨rfl, rfl⟩ := course_pure_iff.mp h
      exact ⟨[], .exhaust hpresent, rfl⟩
  | succ fuel ih =>
    unfold loop at h
    split at h
    · rename_i habsent
      obtain ⟨rfl, rfl⟩ := course_pure_iff.mp h
      exact ⟨[], .leave habsent, rfl⟩
    · rename_i s hpresent
      obtain ⟨before, after, next, rfl, taken, rest⟩ := course_bind_iff.mp h
      obtain ⟨v, rfl, rfl, rfl, rfl, happens, hnext⟩ := visit_of_course taken
      cases next with
      | goOn p' scope' order' =>
        obtain ⟨visits, trail, rfl⟩ := ih rest
        exact ⟨v :: visits, .goOn hpresent happens hnext trail, rfl⟩
      | stop p' scope' error =>
        obtain ⟨rfl, rfl⟩ := course_pure_iff.mp rest
        exact ⟨[v], .stop hpresent happens hnext, by simp⟩

/-- Two plans are gone through alike if the steps of every number do the same. -/
theorem loop_congr {plan plan' : List Step}
    (same : ∀ order, (stepAt? plan order = none ∧ stepAt? plan' order = none) ∨
      ∃ s s', stepAt? plan order = some s ∧ stepAt? plan' order = some s' ∧
        ∀ scope p, advance c s' scope p = advance c s scope p)
    (scope : Scope) (p : Progress) (order : Int) (fuel : Nat) :
    loop c plan' scope p order fuel = loop c plan scope p order fuel := by
  induction fuel generalizing scope p order with
  | zero =>
    obtain ⟨hnone, hnone'⟩ | ⟨s, s', hsome, hsome', -⟩ := same order
    · rw [loop, loop, hnone, hnone']
    · rw [loop, loop, hsome, hsome']
  | succ fuel ih =>
    obtain ⟨hnone, hnone'⟩ | ⟨s, s', hsome, hsome', hadvance⟩ := same order
    · rw [loop, loop, hnone, hnone']
    · rw [loop, loop, hsome, hsome']
      simp only [hadvance, ih]

/-- The number of the step that a run starts with, and the trail from there. A plan without steps
has the empty trail. -/
def startOf (plan : List Step) : Int := (plan.head?.map (·.order)).getD 0

theorem steps_eq_loop (c : ExecutorConfig) (plan : List Step) (scope : Scope) (p : Progress) :
    steps c plan scope p = loop c plan scope p (startOf plan) c.maxTransitions.toNat := by
  cases plan with
  | nil => exact (loop_of_absent rfl _).symm
  | cons s rest => rfl

theorem trail_of_steps (h : Course (steps c plan scope p) events ended) :
    ∃ visits, Trail c plan c.maxTransitions.toNat scope p (startOf plan) visits ended ∧
      events = visits.flatMap Visit.events := by
  cases plan with
  | nil =>
    obtain ⟨rfl, rfl⟩ := course_pure_iff.mp h
    exact ⟨[], .leave rfl, rfl⟩
  | cons s rest => exact trail_of_course h

/-! ## What a trail tells -/

theorem mem_of_stepAt? {s : Step} (h : stepAt? plan order = some s) : s ∈ plan := by
  simpa using List.mem_of_find?_eq_some h

theorem Trail.happens {visits : List Visit}
    (trail : Trail c plan fuel scope p order visits ended) :
    ∀ v ∈ visits, v.step ∈ plan ∧ v.Happens c := by
  induction trail with
  | leave => exact List.forall_mem_nil _
  | exhaust => exact List.forall_mem_nil _
  | goOn present happens _ _ ih =>
    exact List.forall_mem_cons.mpr ⟨⟨mem_of_stepAt? present, happens⟩, ih⟩
  | stop present happens _ =>
    exact List.forall_mem_singleton.mpr ⟨mem_of_stepAt? present, happens⟩

/-- What a run is reported to have failed with when a step of it failed so. -/
def abortText (s : Step) (f : Failure) : String := s!"Step {s.order} ({s.name}): {errorText f}"

/-- A run ends with an error if it takes too many steps or if a step fails, and then with that
failure. -/
theorem Trail.error {visits : List Visit}
    (trail : Trail c plan fuel scope p order visits ended) {error : String}
    (h : ended.error = some error) :
    error = exhaustion c ∨ ∃ v ∈ visits, ∃ a f, v.attempted = some a ∧ a.result = .error f ∧
      error = abortText v.step f := by
  induction trail with
  | leave => cases h
  | exhaust =>
    cases h
    exact .inl rfl
  | goOn _ _ _ _ ih =>
    rcases ih h with hexhausted | ⟨v, hv, hfailed⟩
    · exact .inl hexhausted
    · exact .inr ⟨v, List.mem_cons_of_mem _ hv, hfailed⟩
  | @stop _ v _ _ _ _ _ happens next =>
    obtain ⟨outcome, ends⟩ := Visit.ends happens
    rw [next] at ends
    cases ends with
    | failed tried failure _ =>
      cases h
      exact .inr ⟨v, List.mem_singleton_self v, _, _, tried, failure, rfl⟩

/-! ## Whole runs -/

/-- The parts of a run that has a result. -/
structure Parts (c : ExecutorConfig) (logged : Bool) (p : Pipeline) (r : InboundRecord)
    (w : Option Workflow) (events : List Event) (result : RunResult) where
  entry : Option LogEntry
  opening : List Event
  visits : List Visit
  ended : Ended
  closing : List Event
  events_eq : events = opening ++ (visits.flatMap Visit.events ++ closing)
  opens : Course (openEntry logged r p w) opening (.ok entry)
  trail : Trail c p.plan c.maxTransitions.toNat (Scope.start r.payload) { entry }
    (startOf p.plan) visits ended
  closes : Course (close r p w ended) closing (.ok result.entry)
  outcomes_eq : result.outcomes = ended.progress.outcomes
  error_eq : result.error = ended.error

/-- A run that has a result has parts, and ends with the scope that it reports. -/
theorem exists_parts_scope {logged : Bool} {p : Pipeline} {r : InboundRecord} {w : Option Workflow}
    {result : RunResult} (h : Course (p.run c logged r w) events (.ok result)) :
    ∃ parts : Parts c logged p r w events result, result.scope = parts.ended.scope := by
  obtain ⟨opening, after, opened, rfl, opens, rest⟩ := course_bind_iff.mp h
  cases opened with
  | error f =>
    obtain ⟨-, hf⟩ := course_pure_iff.mp rest
    cases hf
  | ok entry =>
    obtain ⟨middle, after, ended, rfl, taken, last⟩ := course_bind_iff.mp rest
    obtain ⟨visits, trail, rfl⟩ := trail_of_steps taken
    obtain ⟨closing, after, closed, rfl, closes, final⟩ := course_bind_iff.mp last
    cases closed with
    | error f =>
      obtain ⟨-, hf⟩ := course_pure_iff.mp final
      cases hf
    | ok entry' =>
      obtain ⟨rfl, hr⟩ := course_pure_iff.mp final
      cases hr
      exact ⟨⟨entry, opening, visits, ended, closing, by simp, opens, trail, closes, rfl, rfl⟩, rfl⟩

theorem exists_parts {logged : Bool} {p : Pipeline} {r : InboundRecord} {w : Option Workflow}
    {result : RunResult} (h : Course (p.run c logged r w) events (.ok result)) :
    Nonempty (Parts c logged p r w events result) := (exists_parts_scope h).nonempty

/-- A record to try runs with. -/
def reading : InboundRecord where
  dataId := "reading"
  sourceKind := .senderApp
  sourceId := 1
  payload := [("level", .int 21)]
  receivedAt := ⟨0, none⟩

end Conveyor.Run
