import Mathlib.Data.List.Nodup
import Conveyor.Pipeline.Validation
import Conveyor.Proofs.Run.Determined
import Conveyor.Proofs.Run.Mirror

/-!
# Lists of steps in another order

The steps of a pipeline are taken by their numbers. Where these differ, nothing depends on the order
in which the steps are listed (`permuted_alike`), but for one thing: an entry of the log names the
destinations of the steps, and names them in that order. So a run of the same steps in another order
is the same run with other labels on its entries (`Activity.labelled`).
-/

namespace Conveyor

/-! ## Plans -/

namespace Pipeline

variable {p : Pipeline} {steps : List Step}

/-- Steps with different numbers can be sorted in one way only. -/
theorem sortedSteps_permuted (distinct : (p.steps.map (·.order)).Nodup) (perm : steps.Perm p.steps) :
    { p with steps }.sortedSteps = p.sortedSteps := by
  have sorted : ∀ q : Pipeline, q.sortedSteps.Pairwise fun a b => a.order ≤ b.order := by
    intro q
    have hsorted : q.sortedSteps.Pairwise fun a b => decide (a.order ≤ b.order) = true :=
      List.pairwise_mergeSort
        (fun a b c hab hbc => by
          rw [decide_eq_true_eq] at hab hbc ⊢
          exact Int.le_trans hab hbc)
        (fun a b => by
          rw [Bool.or_eq_true, decide_eq_true_eq, decide_eq_true_eq]
          exact Int.le_total _ _) q.steps
    exact hsorted.imp of_decide_eq_true
  have hperm : ({ p with steps }.sortedSteps).Perm p.sortedSteps :=
    (List.mergeSort_perm ..).trans (perm.trans (List.mergeSort_perm ..).symm)
  refine hperm.eq_of_pairwise (fun a b ha hb hab hba => ?_) (sorted _) (sorted p)
  have hmem : a ∈ p.steps := perm.mem_iff.mp (List.mem_mergeSort.mp ha)
  exact List.inj_on_of_nodup_map distinct hmem (List.mem_mergeSort.mp hb) (Int.le_antisymm hab hba)

theorem plan_permuted (distinct : (p.steps.map (·.order)).Nodup) (perm : steps.Perm p.steps) :
    { p with steps }.plan = p.plan := by
  rw [plan, plan, sortedSteps_permuted distinct perm]
  rfl

/-- The issues of a pipeline are those of its steps by number. -/
theorem pipelineIssues_permuted (distinct : (p.steps.map (·.order)).Nodup)
    (perm : steps.Perm p.steps) (place : Place) :
    Validation.pipelineIssues place { p with steps } = Validation.pipelineIssues place p := by
  have hempty : { p with steps }.isSequential = p.isSequential := by
    unfold isSequential
    rw [perm.isEmpty_eq]
  have hdestination : Validation.destinationIssues place { p with steps } =
      Validation.destinationIssues place p := by
    unfold Validation.destinationIssues
    rw [hempty]
    rfl
  unfold Validation.pipelineIssues
  rw [sortedSteps_permuted distinct perm, hdestination]
  rfl

/-- A pipeline with a destination of its own is logged under that one. -/
theorem destinationLabel_permuted (h : p.destination?.isSome) (steps : List Step) :
    { p with steps }.destinationLabel = p.destinationLabel := by
  obtain ⟨ref, href⟩ := Option.isSome_iff_exists.mp h
  have href' : { p with steps }.destination? = some ref := href
  rw [destinationLabel, destinationLabel, href, href']

end Pipeline

/-! ## Entries under another label -/

/-- The entry with another destination. -/
def LogEntry.labelled (label : Option String) (e : LogEntry) : LogEntry :=
  { e with destination := label }

/-- The result with another destination in its entry. -/
def RunResult.labelled (label : Option String) (r : RunResult) : RunResult :=
  { r with entry := r.entry.map (·.labelled label) }

namespace Activity

variable {α β γ δ : Type} {label : Option String}

/-- The event with another destination in the entry that is put into the log. -/
def Event.labelled (label : Option String) : Event → Event
  | ⟨.append e, r⟩ => ⟨.append (e.labelled label), r⟩
  | ⟨.update e, r⟩ => ⟨.update (e.labelled label), r⟩
  | e => e

/-- The activity with another destination in the entries that it puts into the log, and `f` of its
result. -/
def labelled (label : Option String) (f : α → β) : Activity α → Activity β
  | .done a => .done (f a)
  | .ask (.append e) next => .ask (.append (e.labelled label)) fun r => labelled label f (next r)
  | .ask (.update e) next => .ask (.update (e.labelled label)) fun r => labelled label f (next r)
  | .ask q next => .ask q fun r => labelled label f (next r)

/-- A sequence is labelled part by part. -/
theorem labelled_bind {f : α → β} {g : γ → δ} {rest : α → Activity γ} {rest' : β → Activity δ}
    (h : ∀ a, (rest a).labelled label g = rest' (f a)) (t : Activity α) :
    (t >>= rest).labelled label g = t.labelled label f >>= rest' := by
  induction t with
  | done a => exact h a
  | ask q next ih =>
    cases q with
    | _ => exact congrArg (Activity.ask _) (funext ih)

theorem labelled_now_bind {g : γ → δ} {rest : Moment → Activity γ} {rest' : Moment → Activity δ}
    (h : ∀ t, (rest t).labelled label g = rest' t) :
    (now >>= rest).labelled label g = now >>= rest' :=
  congrArg (Activity.ask .now) (funext h)

theorem calls_labelled (events : List Event) :
    calls (events.map (·.labelled label)) = calls events := by
  unfold calls
  rw [List.filterMap_map]
  congr 1
  funext ⟨q, r⟩
  cases q <;> rfl

end Activity

namespace World

variable {α β σ τ : Type} {w w' : World σ}

/-- Nothing but the log is different after a request and after the labelled one, and both get the
same reply. -/
theorem carryOut_ask_labelled (label : Option String) (f : α → β) (a : Adapter τ σ) (q : Ask)
    (next : q.Reply → Activity α) (beside : w.Beside w') :
    ∃ after : World σ, (reply a q w).2.Beside after ∧
      w'.carryOut a ((Activity.ask q next).labelled label f) =
        after.carryOut a ((next (reply a q w).1).labelled label f) ∧
      Activity.events (reply a) ((Activity.ask q next).labelled label f) w' =
        Activity.Event.labelled label ⟨q, (reply a q w).1⟩ ::
          Activity.events (reply a) ((next (reply a q w).1).labelled label f) after := by
  cases q with
  | append e =>
    obtain ⟨log, rfl⟩ := beside
    exact ⟨{ w with log := log.append (e.labelled label) }, ⟨_, rfl⟩, rfl, rfl⟩
  | update e =>
    obtain ⟨log, rfl⟩ := beside
    exact ⟨{ w with log := log.update (e.labelled label) }, ⟨_, rfl⟩, rfl, rfl⟩
  | _ =>
    obtain ⟨same, after⟩ := beside.reply a _
    refine ⟨_, after, ?_, ?_⟩
    · rw [← same]
      rfl
    · rw [← same]
      rfl

/-- What is carried out with other labels ends as without them, and makes the same calls. -/
theorem carryOut_labelled (label : Option String) (f : α → β) (a : Adapter τ σ) (t : Activity α)
    (beside : w.Beside w') :
    (w'.carryOut a (t.labelled label f)).1 = f (w.carryOut a t).1 ∧
      (w.carryOut a t).2.Beside (w'.carryOut a (t.labelled label f)).2 ∧
      Activity.events (reply a) (t.labelled label f) w' =
        (Activity.events (reply a) t w).map (·.labelled label) := by
  induction t generalizing w w' with
  | done b => exact ⟨rfl, beside, rfl⟩
  | ask q next ih =>
    obtain ⟨after, hafter, hcarryOut, hevents⟩ := carryOut_ask_labelled label f a q next beside
    obtain ⟨result, left, events⟩ := ih _ hafter
    rw [hcarryOut, hevents, events]
    exact ⟨result, left, rfl⟩

end World

/-! ## Runs -/

namespace Run

open Activity

variable {c : ExecutorConfig} {label : Option String}

/-- The bookkeeping with another destination in the entry. -/
def Progress.labelled (label : Option String) (p : Progress) : Progress :=
  { p with entry := p.entry.map (·.labelled label) }

theorem labelled_invoke (s : Step) (scope : Scope) (p : Progress) :
    (invoke s scope p).labelled label (Prod.map (·.labelled label) id) =
      invoke s scope (p.labelled label) := by
  have hperform : ∀ action, (perform s p action).labelled label (Prod.map (·.labelled label) id) =
      perform s (p.labelled label) action := by
    intro action
    cases action with
    | finish output holds => rfl
    | pause seconds output => rfl
    | send ref request sent =>
      refine congrArg (Activity.ask _) (funext fun answer => ?_)
      cases answer with
      | none => rfl
      | some answer =>
        refine congrArg Activity.done ?_
        cases answer with
        | fault f => rfl
        | result r =>
          unfold settle
          simp only
          split
          · rfl
          · rfl
  have htime : (invokeInTime s scope p).labelled label (Prod.map (·.labelled label) id) =
      invokeInTime s scope (p.labelled label) := by
    unfold invokeInTime
    cases s.action scope with
    | ok action => exact hperform action
    | error e =>
      simp only
      split
      · rfl
      · rfl
  unfold invoke
  split
  · rfl
  · exact htime

theorem labelled_noteRetry (p : Progress) (message : String) :
    (noteRetry p message).labelled label (Except.map (·.labelled label)) =
      noteRetry (p.labelled label) message := by
  obtain ⟨entry, outcomes, sent, received⟩ := p
  cases entry with
  | none => rfl
  | some e =>
    have hterminal : (e.labelled label).isTerminal = e.isTerminal := rfl
    unfold noteRetry
    simp only [Progress.labelled, Option.map_some]
    unfold Journal.retry
    rw [hterminal]
    split
    · rfl
    · rfl

def Attempted.labelled (label : Option String) (a : Attempted) : Attempted :=
  { a with progress := a.progress.labelled label }

theorem labelled_attemptFrom (s : Step) (scope : Scope) (attempt retries : Nat) (p : Progress) :
    (attemptFrom c s scope attempt p retries).labelled label (·.labelled label) =
      attemptFrom c s scope attempt (p.labelled label) retries := by
  induction retries generalizing attempt p with
  | zero =>
    rw [attemptFrom, attemptFrom, ← labelled_invoke]
    refine labelled_bind (fun _ => ?_) _
    rfl
  | succ retries ih =>
    rw [attemptFrom, attemptFrom, ← labelled_invoke]
    refine labelled_bind (fun ⟨q, result⟩ => ?_) _
    simp only [Prod.map, id_eq]
    split
    · -- tried again, if there is a delay
      rw [← labelled_noteRetry]
      refine labelled_bind (fun noted => ?_) _
      cases noted with
      | error f => rfl
      | ok q =>
        simp only [Except.map]
        split
        · rfl
        · refine congrArg (Activity.ask _) (funext fun chance => ?_)
          exact congrArg (Activity.ask _) (funext fun _ => ih (attempt + 1) q)
    · rfl

def Next.labelled (label : Option String) : Next → Next
  | .goOn p scope order => .goOn (p.labelled label) scope order
  | .stop p scope error => .stop (p.labelled label) scope error

theorem labelled_conclude (s : Step) (scope : Scope) (a : Attempted) :
    (conclude s scope a).labelled label = conclude s scope (a.labelled label) := by
  obtain ⟨p, attempts, result⟩ := a
  unfold conclude Attempted.labelled
  cases result with
  | ok out => rfl
  | error f =>
    simp only
    split
    · rfl
    · rfl

theorem labelled_advance (s : Step) (scope : Scope) (p : Progress) :
    (advance c s scope p).labelled label (·.labelled label) =
      advance c s scope (p.labelled label) := by
  unfold advance
  split
  · rw [attempt, attempt, ← labelled_attemptFrom]
    refine labelled_bind (fun a => ?_) _
    exact congrArg Activity.done (labelled_conclude s scope a)
  · rfl

def Ended.labelled (label : Option String) (e : Ended) : Ended :=
  { e with progress := e.progress.labelled label }

theorem labelled_loop (plan : List Step) (scope : Scope) (p : Progress) (order : Int) (fuel : Nat) :
    (loop c plan scope p order fuel).labelled label (·.labelled label) =
      loop c plan scope (p.labelled label) order fuel := by
  induction fuel generalizing scope p order with
  | zero =>
    rw [loop, loop]
    split
    · rfl
    · rfl
  | succ fuel ih =>
    rw [loop, loop]
    split
    · rfl
    · rw [← labelled_advance]
      refine labelled_bind (fun next => ?_) _
      cases next with
      | goOn p scope order => exact ih scope p order
      | stop p scope error => rfl

theorem labelled_steps (plan : List Step) (scope : Scope) (p : Progress) :
    (steps c plan scope p).labelled label (·.labelled label) =
      steps c plan scope (p.labelled label) := by
  cases plan with
  | nil => rfl
  | cons s rest => exact labelled_loop (s :: rest) scope p s.order c.maxTransitions.toNat

variable {p p' : Pipeline} {r : InboundRecord} {w w' : Option Workflow}

theorem labelled_openEntry (h : LoggedAlike p w p' w') (logged : Bool) :
    (openEntry logged r p w).labelled p'.destinationLabel
        (Except.map (Option.map (·.labelled p'.destinationLabel))) =
      openEntry logged r p' w' := by
  have hstart : (Journal.start r p w).labelled p'.destinationLabel
      (Except.map (·.labelled p'.destinationLabel)) = Journal.start r p' w' := by
    unfold Journal.start
    rw [h.retention, h.workflow, h.id]
    refine labelled_now_bind fun created => ?_
    cases Journal.expiry created (w.map (·.header.retentionHours)) with
    | error f => rfl
    | ok expires => rfl
  unfold openEntry
  split
  · rw [← hstart]
    refine labelled_bind (fun started => ?_) _
    cases started with
    | error f => rfl
    | ok e => rfl
  · rfl

theorem labelled_close (e : Ended) :
    (close r p w e).labelled label (Except.map (Option.map (·.labelled label))) =
      close r p w (e.labelled label) := by
  obtain ⟨⟨entry, outcomes, sent, received⟩, scope, error⟩ := e
  cases entry with
  | none => rfl
  | some entry =>
    have hfinish : ∀ ending, (Journal.finish entry ending w).labelled label
        (Except.map (·.labelled label)) = Journal.finish (entry.labelled label) ending w := by
      intro ending
      have hterminal : (entry.labelled label).isTerminal = entry.isTerminal := rfl
      unfold Journal.finish
      rw [hterminal]
      split
      · rfl
      · refine labelled_now_bind fun updated => ?_
        split
        · rfl
        · rfl
    unfold close
    simp only [Ended.labelled, Progress.labelled, Option.map_some]
    rw [← hfinish]
    refine labelled_bind (fun closed => ?_) _
    cases closed with
    | error f => rfl
    | ok e => rfl

/-- Pipelines of the same plan that are logged alike run the same, but for the label. -/
theorem labelled_run (h : LoggedAlike p w p' w') (plan : p'.plan = p.plan) (logged : Bool) :
    (p.run c logged r w).labelled p'.destinationLabel
        (Except.map (·.labelled p'.destinationLabel)) =
      p'.run c logged r w' := by
  unfold Pipeline.run
  rw [← labelled_openEntry h]
  refine labelled_bind (fun opened => ?_) _
  cases opened with
  | error f => rfl
  | ok entry =>
    simp only [Except.map]
    rw [plan]
    show _ = steps c p.plan _ (Progress.labelled p'.destinationLabel { entry }) >>= _
    rw [← labelled_steps]
    refine labelled_bind (fun ended => ?_) _
    rw [h.close, ← labelled_close]
    refine labelled_bind (fun closed => ?_) _
    cases closed with
    | error f => rfl
    | ok entry => rfl

/-- Pipelines that list the same steps in two orders, the steps having different numbers, have the
same issues and the same plan. Their runs are the same but for the labels of the entries, whatever the
replies are, and are the same altogether if the pipeline has a destination of its own. So in memory
they end with the same outcomes, scope and error, and have asked for the same things in the same
order, with the same replies. -/
theorem permuted_alike {p : Pipeline} (distinct : (p.steps.map (·.order)).Nodup) {steps : List Step}
    (perm : steps.Perm p.steps) :
    let p' : Pipeline := { p with steps }
    (∀ place, Validation.pipelineIssues place p' = Validation.pipelineIssues place p) ∧
    p'.plan = p.plan ∧
    ∀ (c : ExecutorConfig) (logged : Bool) (r : InboundRecord) (w w' : Option Workflow),
      w'.map (·.header) = w.map (·.header) →
      p'.run c logged r w' = (p.run c logged r w).labelled p'.destinationLabel
        (Except.map (·.labelled p'.destinationLabel)) ∧
      (p.destination?.isSome → p'.run c logged r w' = p.run c logged r w) ∧
      ∀ {σ τ : Type} (a : Adapter τ σ) (world : World σ),
        let ran := world.carryOut a (p.run c logged r w)
        let ran' := world.carryOut a (p'.run c logged r w')
        let before := Activity.events (World.reply a) (p.run c logged r w) world
        let events := Activity.events (World.reply a) (p'.run c logged r w') world
        ran'.1 = ran.1.map (·.labelled p'.destinationLabel) ∧ ran.2.Beside ran'.2 ∧
          events = before.map (·.labelled p'.destinationLabel) ∧ calls events = calls before := by
  intro p'
  have hplan : p'.plan = p.plan := Pipeline.plan_permuted distinct perm
  refine ⟨Pipeline.pipelineIssues_permuted distinct perm, hplan, fun c logged r w w' header => ?_⟩
  have halike : LoggedAlike p w p' w' := ⟨rfl, rfl, header⟩
  have hrun := labelled_run (c := c) (r := r) halike hplan logged
  refine ⟨hrun.symm, fun own => ?_, fun a world => ?_⟩
  · exact halike.run (Pipeline.destinationLabel_permuted own steps) hplan logged
  · obtain ⟨result, beside, events⟩ := World.carryOut_labelled p'.destinationLabel
      (Except.map (·.labelled p'.destinationLabel)) a (p.run c logged r w) (World.beside_refl world)
    rw [hrun] at result beside events
    refine ⟨result, beside, events, ?_⟩
    rw [events, calls_labelled]

/-- Two calls with a gap between their numbers, the later one listed first. -/
def scattered : Pipeline where
  id := "scattered"
  sourceKind := .senderApp
  applicationId := some 1
  steps :=
    [{ order := 5, name := "last", kind := .restCall, rest := { destinationId := some 8 } },
      { order := 2, name := "first", kind := .restCall, rest := { destinationId := some 7 } }]

theorem scattered_alike :
    let p' : Pipeline := { scattered with steps := scattered.steps.reverse }
    (scattered.steps.map (·.order)).Nodup ∧ scattered.steps.reverse.Perm scattered.steps ∧
      p'.plan = scattered.plan ∧
      scattered.destinationLabel = some "rest:8,rest:7" ∧
      p'.destinationLabel = some "rest:7,rest:8" ∧
      ∀ c logged r, p'.run c logged r none = (scattered.run c logged r none).labelled
        (some "rest:7,rest:8") (Except.map (·.labelled (some "rest:7,rest:8"))) := by
  intro p'
  have distinct : (scattered.steps.map (·.order)).Nodup := by decide
  have perm := List.reverse_perm scattered.steps
  have label : p'.destinationLabel = some "rest:7,rest:8" := by decide +kernel
  obtain ⟨-, hplan, hruns⟩ := permuted_alike distinct perm
  refine ⟨distinct, perm, hplan, by decide +kernel, label, fun c logged r => ?_⟩
  rw [← label]
  exact (hruns c logged r none none rfl).1

end Run
end Conveyor
