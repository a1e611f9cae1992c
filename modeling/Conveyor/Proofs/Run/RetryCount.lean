import Mathlib.Algebra.GroupWithZero.Nat
import Conveyor.Proofs.Run.Journal

/-!
# Retry counts

The attempts that the outcomes of a run report against the retries that its log counts. They agree
step by step, except where a step ends in a failure that could not have been tried again: its
outcome reports one attempt, whatever retries the log has noted before.
-/

namespace Conveyor.Run

open Activity

variable {c : ExecutorConfig} {p : Pipeline} {r : InboundRecord} {w : Option Workflow}

/-- The retries that outcomes report: in each, all attempts but the first. -/
def reportedRetries (outcomes : List StepOutcome) : Nat :=
  (outcomes.map fun o => o.attempts - 1).sum

namespace Visit

variable {v : Visit} {e : LogEntry}

/-- Whether the outcome of the visit counts its attempts. -/
def isCounted (v : Visit) : Bool := v.attempted.all Attempted.isCounted

/-- The retries that the log notes during the visit. -/
def noted (v : Visit) : Nat := (logOps v.events).length

/-- The noted retries that the outcome of the visit leaves out. -/
def unreported (v : Visit) : Nat := if v.isCounted then 0 else v.noted

theorem unreported_eq_zero_iff : v.unreported = 0 ↔ v.isCounted = true ∨ v.noted = 0 := by
  unfold unreported
  split
  · rename_i hcounted
    simp [hcounted]
  · rename_i huncounted
    simp [huncounted]

theorem isCounted_eq {a : Attempted} (tried : v.attempted = some a) :
    v.isCounted = a.isCounted := by
  rw [isCounted, tried]
  rfl

theorem noted_of_counted (happens : v.Happens c) (he : v.before.entry = some e)
    (hopen : e.isTerminal = false) {a : Attempted} (tried : v.attempted = some a)
    (counted : a.isCounted = true) : v.noted = a.attempts - 1 := by
  rw [Happens, tried] at happens
  obtain ⟨versions, left⟩ := leaves_attempt happens.2
  rw [left.attempts e he hopen counted, noted, left.logOps, List.length_map]
  omega

/-- A visit to a step notes the retries that its outcome reports, and those that it leaves out. -/
theorem noted_eq (happens : v.Happens c) (he : v.before.entry = some e)
    (hopen : e.isTerminal = false) {outcome : StepOutcome} (ends : v.Ends outcome v.next) :
    v.noted = outcome.attempts - 1 + v.unreported := by
  generalize v.next = next at ends
  unfold unreported
  cases ends with
  | passedOver _ untried quiet =>
    rw [isCounted, untried, noted, quiet]
    rfl
  | @succeeded a out tried ok =>
    have counted : a.isCounted = true := by simp [Attempted.isCounted, ok]
    rw [isCounted_eq tried, if_pos counted]
    exact noted_of_counted happens he hopen tried counted
  | @skipped a e' tried failure =>
    have counted : a.isCounted = true := by simp [Attempted.isCounted, failure]
    rw [isCounted_eq tried, if_pos counted]
    exact noted_of_counted happens he hopen tried counted
  | @failed a f tried failure =>
    rw [isCounted_eq tried]
    cases f with
    | step e' =>
      have counted : a.isCounted = true := by simp [Attempted.isCounted, failure]
      rw [if_pos counted]
      exact noted_of_counted happens he hopen tried counted
    | _ =>
      have uncounted : a.isCounted = false := by simp [Attempted.isCounted, failure]
      rw [uncounted]
      exact (Nat.zero_add _).symm

end Visit

/-- Over a whole trail, what the log notes is what the outcomes report and what they leave out. -/
theorem noted_of_trail {plan : List Step} {fuel : Nat} {scope : Scope} {q : Progress} {order : Int}
    {visits : List Visit} {ended : Ended} {e : LogEntry} (he : q.entry = some e)
    (hopen : e.isTerminal = false) (trail : Trail c plan fuel scope q order visits ended) :
    ∃ outcomes, ended.progress.outcomes = q.outcomes ++ outcomes ∧
      (visits.map Visit.noted).sum =
        reportedRetries outcomes + (visits.map Visit.unreported).sum := by
  induction trail generalizing e with
  | leave => exact ⟨[], by simp, rfl⟩
  | exhaust => exact ⟨[], by simp, rfl⟩
  | @goOn _ v _ order' p' scope' visits _ _ happens next _ ih =>
    obtain ⟨outcome, ends⟩ := Visit.ends happens
    obtain ⟨houtcomes, versions, -, hretries⟩ := Visit.leaves happens ends
    rw [next] at houtcomes hretries
    -- the next visit starts with a later version of the entry, which is open as well
    rw [he] at hretries
    obtain ⟨e', he'⟩ := hretries.exists_last
    rw [he'] at hretries
    obtain ⟨outcomes, hlater, hsum⟩ := ih he' (hretries.isOpen hopen)
    refine ⟨outcome :: outcomes, ?_, ?_⟩
    · rw [hlater, ← Next.progress_goOn p' scope' order', houtcomes, List.append_assoc]
      rfl
    · have hhere := Visit.noted_eq happens he hopen ends
      simp only [List.map_cons, List.sum_cons, reportedRetries] at hsum ⊢
      omega
  | stop _ happens next =>
    obtain ⟨outcome, ends⟩ := Visit.ends happens
    obtain ⟨houtcomes, -⟩ := Visit.leaves happens ends
    rw [next] at houtcomes
    refine ⟨[outcome], houtcomes, ?_⟩
    have hhere := Visit.noted_eq happens he hopen ends
    simp only [List.map_cons, List.map_nil, List.sum_cons, List.sum_nil, reportedRetries]
    omega

theorem sum_noted (visits : List Visit) :
    (visits.map Visit.noted).sum = (logOps (visits.flatMap Visit.events)).length := by
  induction visits with
  | nil => rfl
  | cons v visits ih =>
    rw [List.map_cons, List.sum_cons, ih, List.flatMap_cons, logOps_append, List.length_append]
    rfl

/-- The retry count of a run that is logged is what its outcomes report and what they leave out. -/
theorem Parts.retryCount_eq {events : List Event} {result : RunResult}
    (parts : Parts c true p r w events result) :
    ∃ entry, result.entry = some entry ∧
      entry.retryCount =
        reportedRetries result.outcomes + (parts.visits.map Visit.unreported).sum := by
  obtain ⟨first, versions, last, story, -, hentry, hversions⟩ := parts.exists_story
  obtain ⟨outcomes, houtcomes, hsum⟩ := noted_of_trail hentry story.opened.isOpen parts.trail
  refine ⟨last, story.entry, ?_⟩
  rw [parts.outcomes_eq, houtcomes, List.nil_append, ← hsum, sum_noted, hversions,
    List.length_map]
  exact story.retryCount

theorem sum_unreported_eq_zero_iff {visits : List Visit} :
    (visits.map Visit.unreported).sum = 0 ↔
      ∀ v ∈ visits, v.isCounted = true ∨ v.noted = 0 := by
  induction visits with
  | nil => simp
  | cons v visits ih =>
    rw [List.map_cons, List.sum_cons, Nat.add_eq_zero_iff, ih, Visit.unreported_eq_zero_iff,
      List.forall_mem_cons]

/-- The retries that the log of a run counts are those that its outcomes report, exactly if no visit
of the run ends in a failure of another kind than a step's own after a retry has been noted. They
are never fewer. -/
theorem retryCount_eq_reported_iff {σ : Type} (s : Surroundings σ) (st : σ) (c : ExecutorConfig)
    (p : Pipeline) (r : InboundRecord) (w : Option Workflow) {result : RunResult}
    (returned : (carryOut s (p.run c true r w) st).1 = .ok result) :
    ∃ (parts : Parts c true p r w (Activity.events s (p.run c true r w) st) result)
      (entry : LogEntry),
      result.entry = some entry ∧ reportedRetries result.outcomes ≤ entry.retryCount ∧
      (entry.retryCount = reportedRetries result.outcomes ↔
        ∀ v ∈ parts.visits, v.isCounted = true ∨ v.noted = 0) := by
  have course := course_events s (p.run c true r w) st
  rw [returned] at course
  obtain ⟨parts⟩ := exists_parts course
  obtain ⟨entry, hentry, hcount⟩ := parts.retryCount_eq
  refine ⟨parts, entry, hentry, by omega, ?_⟩
  rw [← sum_unreported_eq_zero_iff, hcount]
  omega

/-- A destination that refuses one call and then breaks down. -/
def failing : World Recording where
  now := ⟨0, none⟩
  destinations :=
    { prepared :=
        [("rest:7", [{ answer := .result { success := false } }, { answer := .fault .broken }])] }

/-- The log counts the retry, and the outcome of the step that broke down does not. -/
theorem failing_run :
    ∃ result,
      (failing.carryOut Recording.adapter (patient.run {} true reading none)).1 = .ok result ∧
      result.entry.map (·.retryCount) = some 1 ∧ reportedRetries result.outcomes = 0 := by
  unfold Pipeline.run Pipeline.plan
  rw [Pipeline.sortedSteps_eq (p := patient) (by decide)]
  decide +kernel

theorem failing_retryCount :
    ∃ result,
      (failing.carryOut Recording.adapter (patient.run {} true reading none)).1 = .ok result ∧
      ∃ (parts : Parts {} true patient reading none
          (Activity.events (World.reply Recording.adapter) (patient.run {} true reading none)
            failing) result) (entry : LogEntry),
        result.entry = some entry ∧ reportedRetries result.outcomes < entry.retryCount ∧
        ∃ v ∈ parts.visits, v.isCounted = false ∧ 0 < v.noted := by
  obtain ⟨result, returned, noted, reported⟩ := failing_run
  -- the count differs from the reported one, so some visit breaks the condition
  obtain ⟨parts, entry, hentry, -, hiff⟩ :=
    retryCount_eq_reported_iff (World.reply Recording.adapter) failing {} patient reading none
      returned
  have hone : entry.retryCount = 1 := by
    rw [hentry] at noted
    exact Option.some.inj noted
  refine ⟨result, returned, parts, entry, hentry, by omega, ?_⟩
  by_contra hnone
  push Not at hnone
  have heq := hiff.mpr fun v hv => by
    cases hcounted : v.isCounted with
    | true => exact .inl rfl
    | false =>
      have hquiet := hnone v hv hcounted
      exact .inr (by omega)
  omega

theorem failing_unreported :
    ∃ result entry,
      (failing.carryOut Recording.adapter (patient.run {} true reading none)).1 = .ok result ∧
      result.entry = some entry ∧ entry.retryCount ≠ reportedRetries result.outcomes := by
  obtain ⟨result, returned, noted, reported⟩ := failing_run
  obtain ⟨entry, hentry, hone⟩ := Option.map_eq_some_iff.mp noted
  refine ⟨result, entry, returned, hentry, ?_⟩
  rw [hone, reported]
  decide

end Conveyor.Run
