import Conveyor.Proofs.Run.Replies
import Conveyor.Run.Execution

/-!
# What a result depends on

A run asks for the time and for an id to put them into its entry, and for nothing else. So the result
of a run is determined by the answers to its calls, up to the id and the times of its entry. Of its
pipeline and its workflow it uses the plan, and what its entry shows of them (`LoggedAlike`).
-/

namespace Conveyor

/-- The entries are the same but for their ids and times. -/
def LogEntry.Alike (e e' : LogEntry) : Prop :=
  ∃ id createdAt updatedAt expiresAt, e' = { e with id, createdAt, updatedAt, expiresAt }

/-- The results are the same but for the ids and times of their entries. -/
structure RunResult.Alike (x x' : RunResult) : Prop where
  outcomes : x'.outcomes = x.outcomes
  scope : x'.scope = x.scope
  error : x'.error = x.error
  entry : Option.Rel LogEntry.Alike x.entry x'.entry

namespace Run

open Activity

variable {m : Replies} {now now' : Moment} {c : ExecutorConfig} {scope : Scope} {s : Step}
  {p p' : Progress} {plan : List Step}

structure Progress.Alike (p p' : Progress) : Prop where
  entry : Option.Rel LogEntry.Alike p.entry p'.entry
  outcomes : p'.outcomes = p.outcomes
  sent : p'.dataSent = p.dataSent
  received : p'.dataReceived = p.dataReceived

/-! ## Steps -/

/-- Two steps that have been taken once came to the same. -/
def TakenAlike {α : Type} (x x' : Progress × α) : Prop := x.1.Alike x'.1 ∧ x'.2 = x.2

theorem alike_settle (h : p.Alike p') (ref : DestinationRef) (sent : Value) (answer : Answer) :
    TakenAlike (settle ref sent p answer) (settle ref sent p' answer) := by
  cases answer with
  | fault f => exact ⟨h, rfl⟩
  | result r =>
    unfold settle
    simp only
    split
    · exact ⟨⟨h.entry, h.outcomes, rfl, rfl⟩, rfl⟩
    · exact ⟨⟨h.entry, h.outcomes, rfl, rfl⟩, rfl⟩

theorem agree_turn (h : p.Alike p') (limit : Binary64) (result : Except Failure Output) :
    Agree m now now' TakenAlike (Activity.turn limit >>= fun _ => pure (p, result))
      (Activity.turn limit >>= fun _ => pure (p', result)) :=
  agree_request_bind (.turn limit) (.turn limit) fun _ _ _ _ => agree_pure ⟨h, rfl⟩

/-- A call gets the same answer whenever it is made. -/
theorem agree_send (h : p.Alike p') (inTime : s.timeout.le .zero = false) (ref : DestinationRef)
    (request : Request) (sent : Value) :
    Agree m now now' TakenAlike (send s ref request sent p) (send s ref request sent p') := by
  refine agree_request_bind (.call s.timeout ref request) (.call s.timeout ref request)
    fun answer answer' allowed allowed' => ?_
  obtain rfl : answer = answer' := (allowed inTime).trans (allowed' inTime).symm
  cases answer with
  | none => exact agree_pure ⟨h, rfl⟩
  | some answer => exact agree_pure (alike_settle h ref sent answer)

theorem agree_perform (h : p.Alike p') (action : Action)
    (inTime : ∀ ref request sent, action = .send ref request sent → s.timeout.le .zero = false) :
    Agree m now now' TakenAlike (perform s p action) (perform s p' action) := by
  cases action with
  | finish output holds => exact agree_turn h s.timeout (.ok ⟨output, holds⟩)
  | send ref request sent => exact agree_send h (inTime ref request sent rfl) ref request sent
  | pause seconds output =>
    exact agree_request_bind (.wait seconds) (.wait seconds) fun _ _ _ _ => agree_pure ⟨h, rfl⟩

/-- A pause makes no call. -/
theorem kind_ne_delay_of_send {ref : DestinationRef} {request : Request} {sent : Value}
    (h : s.action scope = .ok (.send ref request sent)) : s.kind ≠ .delay := by
  intro hkind
  unfold Step.action at h
  rw [hkind] at h
  cases hinput : scope.renderInput s.inputMapping with
  | error f =>
    rw [hinput] at h
    cases h
  | ok input =>
    rw [hinput] at h
    cases h

theorem agree_invokeInTime (h : p.Alike p') (inTime : s.kind ≠ .delay → s.timeout.le .zero = false) :
    Agree m now now' TakenAlike (invokeInTime s scope p) (invokeInTime s scope p') := by
  unfold invokeInTime
  cases haction : s.action scope with
  | ok action =>
    refine agree_perform h action fun ref request sent hsend => inTime ?_
    subst hsend
    exact kind_ne_delay_of_send haction
  | error e =>
    simp only
    split
    · exact agree_turn h s.timeout (.error e)
    · exact agree_pure ⟨h, rfl⟩

theorem agree_invoke (h : p.Alike p') :
    Agree m now now' TakenAlike (invoke s scope p) (invoke s scope p') := by
  unfold invoke
  split
  · exact agree_turn h s.timeout _
  · rename_i hguard
    refine agree_invokeInTime h fun hkind => ?_
    cases htimeout : s.timeout.le .zero with
    | false => rfl
    | true => exact absurd ⟨hkind, htimeout⟩ hguard

/-! ## Attempts -/

/-- Two entries were put in retry, or neither was. -/
inductive NotedAlike : Except Fault Progress → Except Fault Progress → Prop where
  | failed (f : Fault) : NotedAlike (.error f) (.error f)
  | noted {q q' : Progress} (alike : q.Alike q') : NotedAlike (.ok q) (.ok q')

theorem agree_noteRetry (h : p.Alike p') (message : String) :
    Agree m now now' NotedAlike (noteRetry p message) (noteRetry p' message) := by
  obtain ⟨entry, outcomes, sent, received⟩ := h
  unfold noteRetry
  generalize hentry : p.entry = e at entry ⊢
  generalize hentry' : p'.entry = e' at entry ⊢
  cases entry with
  | none =>
    refine agree_pure (.noted ⟨?_, outcomes, sent, received⟩)
    rw [hentry, hentry']
    exact .none
  | @some e e' alike =>
    obtain ⟨id, createdAt, updatedAt, expiresAt, rfl⟩ := alike
    have hterminal : ({ e with id, createdAt, updatedAt, expiresAt } : LogEntry).isTerminal =
        e.isTerminal := rfl
    simp only
    unfold Journal.retry
    rw [hterminal]
    split
    · exact agree_pure (.failed .badValue)
    · refine agree_request_bind .now .now fun updated updated' _ _ => ?_
      refine agree_request_bind (.update _) (.update _) fun _ _ _ _ => agree_pure (.noted ?_)
      exact ⟨.some ⟨id, createdAt, updated', expiresAt, rfl⟩, outcomes, sent, received⟩

structure Attempted.Alike (a a' : Attempted) : Prop where
  progress : a.progress.Alike a'.progress
  attempts : a'.attempts = a.attempts
  result : a'.result = a.result

theorem agree_attemptFrom (h : p.Alike p') (attempt retries : Nat) :
    Agree m now now' Attempted.Alike (attemptFrom c s scope attempt p retries)
      (attemptFrom c s scope attempt p' retries) := by
  induction retries generalizing attempt p p' with
  | zero => exact (agree_invoke h).bind fun x x' ⟨progress, same⟩ => agree_pure ⟨progress, rfl, same⟩
  | succ retries ih =>
    refine (agree_invoke h).bind fun x x' taken => ?_
    obtain ⟨q, result⟩ := x
    obtain ⟨q', result'⟩ := x'
    obtain ⟨progress, same⟩ := taken
    obtain rfl : result' = result := same
    simp only at progress ⊢
    split
    · rename_i e
      -- tried again, if there is a delay
      refine (agree_noteRetry progress _).bind fun noted noted' both => ?_
      cases both with
      | failed f => exact agree_pure ⟨progress, rfl, rfl⟩
      | noted alike =>
        simp only
        split
        · exact agree_pure ⟨alike, rfl, rfl⟩
        · rename_i delay _
          -- what is drawn may differ, and so may the waits
          refine agree_request_bind .draw .draw fun chance chance' _ _ => ?_
          exact agree_request_bind (.wait (delay chance)) (.wait (delay chance')) fun _ _ _ _ =>
            ih alike (attempt + 1)
    · exact agree_pure ⟨progress, rfl, rfl⟩

/-! ## Plans -/

/-- Two runs stand at the same place after a step. -/
inductive NextAlike : Next → Next → Prop where
  | goOn {q q' : Progress} (alike : q.Alike q') (scope : Scope) (order : Int) :
      NextAlike (.goOn q scope order) (.goOn q' scope order)
  | stop {q q' : Progress} (alike : q.Alike q') (scope : Scope) (error : Option String) :
      NextAlike (.stop q scope error) (.stop q' scope error)

theorem alike_note (h : p.Alike p') (o : StepOutcome) : (note p o).Alike (note p' o) :=
  ⟨h.entry, congrArg (· ++ [o]) h.outcomes, h.sent, h.received⟩

theorem alike_conclude {a a' : Attempted} (h : a.Alike a') :
    NextAlike (conclude s scope a) (conclude s scope a') := by
  obtain ⟨progress, attempts, result⟩ := a
  obtain ⟨progress', attempts', result'⟩ := a'
  obtain ⟨alike, hattempts, hresult⟩ := h
  obtain rfl : attempts' = attempts := hattempts
  obtain rfl : result' = result := hresult
  unfold conclude
  simp only
  split
  · exact .goOn (alike_note alike _) _ _
  · simp only [attemptsOf]
    split
    · exact .goOn (alike_note alike _) _ _
    · exact .stop (alike_note alike _) _ _

theorem agree_advance (h : p.Alike p') :
    Agree m now now' NextAlike (advance c s scope p) (advance c s scope p') := by
  unfold advance
  split
  · exact (agree_attemptFrom h 1 (retries s)).bind fun a a' alike => agree_pure (alike_conclude alike)
  · exact agree_pure (.goOn (alike_note h _) _ _)

structure Ended.Alike (e e' : Ended) : Prop where
  progress : e.progress.Alike e'.progress
  scope : e'.scope = e.scope
  error : e'.error = e.error

theorem agree_loop (h : p.Alike p') (scope : Scope) (order : Int) (fuel : Nat) :
    Agree m now now' Ended.Alike (loop c plan scope p order fuel)
      (loop c plan scope p' order fuel) := by
  induction fuel generalizing p p' scope order with
  | zero =>
    unfold loop
    split
    · exact agree_pure ⟨h, rfl, rfl⟩
    · exact agree_pure ⟨h, rfl, rfl⟩
  | succ fuel ih =>
    unfold loop
    split
    · exact agree_pure ⟨h, rfl, rfl⟩
    · refine (agree_advance h).bind fun next next' both => ?_
      cases both with
      | goOn alike scope order => exact ih alike scope order
      | stop alike scope error => exact agree_pure ⟨alike, rfl, rfl⟩

theorem agree_steps (h : p.Alike p') (scope : Scope) :
    Agree m now now' Ended.Alike (steps c plan scope p) (steps c plan scope p') := by
  unfold steps
  split
  · exact agree_pure ⟨h, rfl, rfl⟩
  · exact agree_loop h _ _ _

/-! ## Entries -/

variable {r : InboundRecord} {pipeline : Pipeline} {w : Option Workflow}

/-- If both came to something, it is related. -/
def BothOk {α ε : Type} (R : α → α → Prop) (x x' : Except ε α) : Prop :=
  ∀ a a', x = .ok a → x' = .ok a' → R a a'

theorem bothOk_ok {α ε : Type} {R : α → α → Prop} {a a' : α} (related : R a a') :
    BothOk R (.ok a : Except ε α) (.ok a') := by
  rintro _ _ ⟨⟩ ⟨⟩
  exact related

theorem BothOk.map {α β ε : Type} {R : α → α → Prop} {S : β → β → Prop} {x x' : Except ε α} {f : α → β}
    (h : BothOk R x x') (mono : ∀ a a', R a a' → S (f a) (f a')) : BothOk S (x.map f) (x'.map f) := by
  intro b b' hb hb'
  cases x with
  | error e => cases hb
  | ok a =>
    cases x' with
    | error e => cases hb'
    | ok a' =>
      cases hb
      cases hb'
      exact mono a a' (h a a' rfl rfl)

/-- What has failed is related to anything. -/
theorem agree_of_failed {α ε : Type} {R : α → α → Prop} (f : ε) (t : Activity (Except ε α)) :
    Agree m now now' (BothOk R) (pure (.error f)) t := by
  intro x x' hx _
  cases hx
  exact fun _ _ h => by cases h

theorem agree_of_failed_right {α ε : Type} {R : α → α → Prop} (t : Activity (Except ε α)) (f : ε) :
    Agree m now now' (BothOk R) t (pure (.error f)) := by
  intro x x' _ hx'
  cases hx'
  exact fun _ _ _ h => by cases h

theorem agree_start :
    Agree m now now' (BothOk LogEntry.Alike) (Journal.start r pipeline w)
      (Journal.start r pipeline w) := by
  unfold Journal.start
  refine agree_request_bind .now .now fun created created' _ _ => ?_
  split
  · exact agree_of_failed _ _
  · split
    · exact agree_of_failed_right _ _
    · refine agree_request_bind .drawId .drawId fun id id' _ _ => ?_
      refine agree_request_bind (.append _) (.append _) fun _ _ _ _ => agree_pure (bothOk_ok ?_)
      exact ⟨id', created', created', _, rfl⟩

theorem agree_openEntry :
    Agree m now now' (BothOk (Option.Rel LogEntry.Alike)) (openEntry true r pipeline w)
      (openEntry true r pipeline w) :=
  agree_start.bind fun _ _ both => agree_pure (both.map fun _ _ alike => .some alike)

theorem agree_finish {e e' : LogEntry} (alike : e.Alike e') (end_ : Journal.Ending) :
    Agree m now now' (BothOk LogEntry.Alike) (Journal.finish e end_ w)
      (Journal.finish e' end_ w) := by
  obtain ⟨id, createdAt, updatedAt, expiresAt, rfl⟩ := alike
  have hterminal : ({ e with id, createdAt, updatedAt, expiresAt } : LogEntry).isTerminal =
      e.isTerminal := rfl
  unfold Journal.finish
  rw [hterminal]
  split
  · exact agree_of_failed _ _
  · refine agree_request_bind .now .now fun updated updated' _ _ => ?_
    have hclosed : (Journal.close e end_ updated).Alike
        (Journal.close { e with id, createdAt, updatedAt, expiresAt } end_ updated') :=
      ⟨id, createdAt, updated', expiresAt, rfl⟩
    simp only
    split
    · exact agree_request_bind (.discard _) (.discard _) fun _ _ _ _ => agree_pure (bothOk_ok hclosed)
    · exact agree_request_bind (.update _) (.update _) fun _ _ _ _ => agree_pure (bothOk_ok hclosed)

theorem agree_close {e e' : Ended} (h : e.Alike e') :
    Agree m now now' (BothOk (Option.Rel LogEntry.Alike)) (close r pipeline w e)
      (close r pipeline w e') := by
  obtain ⟨⟨entry, -, sent, received⟩, -, error⟩ := h
  unfold close
  rw [sent, received, error]
  generalize e.progress.entry = opened at entry ⊢
  generalize e'.progress.entry = opened' at entry ⊢
  cases entry with
  | none => exact agree_pure (bothOk_ok .none)
  | some alike =>
    exact (agree_finish alike _).bind fun _ _ both =>
      agree_pure (both.map fun _ _ alike => .some alike)

/-! ## Runs -/

theorem agree_run :
    Agree m now now' (BothOk RunResult.Alike) (pipeline.run c true r w) (pipeline.run c true r w) := by
  unfold Pipeline.run
  refine agree_openEntry.bind fun x x' both => ?_
  cases x with
  | error f => exact agree_of_failed f _
  | ok entry =>
    cases x' with
    | error f => exact agree_of_failed_right _ f
    | ok entry' =>
      have hstart : ({ entry } : Progress).Alike { entry := entry' } :=
        ⟨both entry entry' rfl rfl, rfl, rfl, rfl⟩
      refine (agree_steps hstart _).bind fun e e' alike => ?_
      refine (agree_close alike).bind fun y y' closed => ?_
      cases y with
      | error f => exact agree_of_failed f _
      | ok last =>
        cases y' with
        | error f => exact agree_of_failed_right _ f
        | ok last' =>
          exact agree_pure (bothOk_ok
            ⟨alike.progress.outcomes, alike.scope, alike.error, closed last last' rfl rfl⟩)

/-- Two runs of a record through a pipeline whose calls are answered alike have results that are the
same but for the ids and times of their entries. -/
theorem alike_of_ends {x x' : RunResult} (h : Ends m now (pipeline.run c true r w) (.ok x))
    (h' : Ends m now' (pipeline.run c true r w) (.ok x')) : x.Alike x' :=
  agree_run _ _ h h' x x' rfl rfl

/-! ## What is logged of a pipeline and its workflow -/

/-- Runs of the two pipelines, each of its workflow, are logged under the same ids and as the same
header says. -/
structure LoggedAlike (p : Pipeline) (w : Option Workflow) (p' : Pipeline) (w' : Option Workflow) :
    Prop where
  id : p'.id = p.id
  workflowId : p'.workflowId = p.workflowId
  header : w'.map (·.header) = w.map (·.header)

namespace LoggedAlike

variable {p p' : Pipeline} {w w' : Option Workflow}

theorem retention (h : LoggedAlike p w p' w') :
    w'.map (·.header.retentionHours) = w.map (·.header.retentionHours) := by
  have hmap := congrArg (Option.map (·.retentionHours)) h.header
  rwa [Option.map_map, Option.map_map] at hmap

theorem workflow (h : LoggedAlike p w p' w') :
    Journal.workflowId p' w' = Journal.workflowId p w := by
  have hmap := congrArg (Option.map (·.id)) h.header
  rw [Option.map_map, Option.map_map] at hmap
  have hname : w'.map (·.id) = w.map (·.id) := hmap
  rw [Journal.workflowId, Journal.workflowId, h.workflowId, hname]

theorem finish (h : LoggedAlike p w p' w') (e : LogEntry) (ending : Journal.Ending) :
    Journal.finish e ending w' = Journal.finish e ending w := by
  have hany := congrArg (Option.any (·.deleteFailedImmediately)) h.header
  rw [Option.any_map, Option.any_map] at hany
  have hdiscard : w'.any (·.header.deleteFailedImmediately) =
      w.any (·.header.deleteFailedImmediately) := hany
  rw [Journal.finish, Journal.finish, hdiscard]

theorem close (h : LoggedAlike p w p' w') (e : Ended) :
    close r p' w' e = close r p w e := by
  unfold Run.close
  rw [h.id]
  simp only [h.finish]

theorem openEntry (h : LoggedAlike p w p' w') (label : p'.destinationLabel = p.destinationLabel)
    (logged : Bool) : openEntry logged r p' w' = openEntry logged r p w := by
  rw [Run.openEntry, Run.openEntry, Journal.start, Journal.start, h.retention, h.workflow, h.id,
    label]

/-- Pipelines of the same plan that are logged alike run the same. -/
theorem run (h : LoggedAlike p w p' w') (label : p'.destinationLabel = p.destinationLabel)
    (plan : p'.plan = p.plan) (logged : Bool) : p'.run c logged r w' = p.run c logged r w := by
  unfold Pipeline.run
  rw [h.openEntry label, plan]
  simp only [h.close]

end LoggedAlike
end Run
end Conveyor
