import Mathlib.Data.List.Forall2
import Conveyor.Proofs.Run.Determined
import Conveyor.Proofs.Run.Limit
import Conveyor.Proofs.Run.Repetition

/-!
# Policies that are not seen

The policy of a step says what becomes of a failure that could be tried again. A run in which no
attempt fails like that goes the same under all policies (`IsCalm.course`), and to stop at such a
failure is to repeat the step no times (`advance_spared`).
-/

namespace Conveyor

/-- What becomes of a step that fails, and how often it may be repeated. -/
structure Policy where
  onError : ErrorPolicy
  maxRetries : Int

namespace Policy

/-- The policy is kept, or a stop becomes no repetition at all. -/
def Spares (q q' : Policy) : Prop := q' = q ∨ q.onError = .stop ∧ q' = ⟨.retry, 0⟩

end Policy

/-! ## Other policies -/

namespace Step

def policy (s : Step) : Policy := ⟨s.onError, s.maxRetries⟩

/-- The step under another policy. -/
def under (q : Policy) (s : Step) : Step := { s with onError := q.onError, maxRetries := q.maxRetries }

/-- The step is the same, but under a policy to which its own may be changed. -/
def Reassigned (R : Policy → Policy → Prop) (s s' : Step) : Prop :=
  ∃ q, R s.policy q ∧ s' = s.under q

end Step

namespace Delivery

def policy (d : Delivery) : Policy := ⟨d.onError, d.maxRetries⟩

def under (q : Policy) (d : Delivery) : Delivery :=
  { d with onError := q.onError, maxRetries := q.maxRetries }

end Delivery

/-- Lists that are related element by element are sorted alike if related elements are. -/
theorem forall₂_mergeSort {α : Type} {R : α → α → Prop} {le : α → α → Bool} {l l' : List α}
    (h : List.Forall₂ R l l')
    (same : ∀ {a a' b b'}, R a a' → R b b' → le a b = le a' b') :
    List.Forall₂ R (l.mergeSort le) (l'.mergeSort le) := by
  have hlength := h.length_eq
  have hrel : ∀ x ∈ l.zip l', R x.1 x.2 := fun x hx => List.forall₂_zip h hx
  have hfst : ((l.zip l').mergeSort fun x y => le x.1 y.1).map Prod.fst = l.mergeSort le := by
    refine (List.map_mergeSort (f := Prod.fst) (s := le) fun _ _ _ _ => rfl).trans ?_
    rw [List.map_fst_zip hlength.le]
  have hsnd : ((l.zip l').mergeSort fun x y => le x.1 y.1).map Prod.snd = l'.mergeSort le := by
    refine (List.map_mergeSort (f := Prod.snd) (s := le)
      fun x hx y hy => same (hrel x hx) (hrel y hy)).trans ?_
    rw [List.map_snd_zip hlength.ge]
  rw [← hfst, ← hsnd, List.forall₂_map_left_iff, List.forall₂_map_right_iff]
  exact List.forall₂_same.mpr fun x hx => hrel x (List.mem_mergeSort.mp hx)

namespace Pipeline

/-- The pipeline is the same but for the policies of its steps and of its destination. -/
structure Reassigned (R : Policy → Policy → Prop) (p p' : Pipeline) : Prop where
  steps : List.Forall₂ (Step.Reassigned R) p.steps p'.steps
  delivery : ∃ q, R p.delivery.policy q ∧ p' = { p with
    steps := p'.steps
    delivery := p.delivery.under q }

variable {R : Policy → Policy → Prop} {p p' : Pipeline}

theorem Reassigned.destination? (h : p.Reassigned R p') : p'.destination? = p.destination? := by
  obtain ⟨-, q, -, hp⟩ := h
  rw [hp]
  rfl

theorem Reassigned.destinationStep? (h : p.Reassigned R p') (order : Int) :
    Option.Rel (Step.Reassigned R) (p.destinationStep? order) (p'.destinationStep? order) := by
  obtain ⟨-, q, allowed, hp⟩ := h
  have hstep : p'.destinationStep? order = (p.destinationStep? order).map (Step.under q) := by
    rw [hp]
    unfold Pipeline.destinationStep?
    rw [Option.map_map]
    show p.destination?.map _ = p.destination?.map _
    congr 1
    funext ref
    cases hkind : ref.kind <;> simp only [hkind, Function.comp_apply] <;> rfl
  rw [hstep]
  cases hs : p.destinationStep? order with
  | none => exact .none
  | some s =>
    refine .some ⟨q, ?_, rfl⟩
    obtain ⟨ref, -, rfl⟩ := Option.map_eq_some_iff.mp hs
    cases hkind : ref.kind <;> exact allowed

theorem Reassigned.plan (h : p.Reassigned R p') :
    List.Forall₂ (Step.Reassigned R) p.plan p'.plan := by
  have hsteps : List.Forall₂ (Step.Reassigned R) p.sortedSteps p'.sortedSteps := by
    refine forall₂_mergeSort h.steps fun {a a' b b'} ha hb => ?_
    obtain ⟨q, -, rfl⟩ := ha
    obtain ⟨q', -, rfl⟩ := hb
    rfl
  show List.Forall₂ _ (p.sortedSteps ++ _) (p'.sortedSteps ++ _)
  rw [← hsteps.length_eq]
  have hlast := h.destinationStep? (p.sortedSteps.length + 1)
  generalize p.destinationStep? _ = last at hlast ⊢
  generalize p'.destinationStep? _ = last' at hlast ⊢
  refine List.rel_append hsteps ?_
  cases hlast with
  | none => exact .nil
  | some related => exact .cons related .nil

/-- A log entry does not show policies. -/
theorem Reassigned.destinationLabel (h : p.Reassigned R p') :
    p'.destinationLabel = p.destinationLabel := by
  have hrefs : (p'.steps.filterMap fun s => s.destination?.map DestinationRef.text) =
      p.steps.filterMap fun s => s.destination?.map DestinationRef.text := by
    have hsteps := h.steps
    generalize p.steps = steps at hsteps ⊢
    generalize p'.steps = steps' at hsteps ⊢
    induction hsteps with
    | nil => rfl
    | cons related _ ih =>
      obtain ⟨q, -, rfl⟩ := related
      rw [List.filterMap_cons, List.filterMap_cons, ih]
      rfl
  rw [Pipeline.destinationLabel, Pipeline.destinationLabel, h.destination?, hrefs]

end Pipeline

namespace Run

open Activity

variable {R : Policy → Policy → Prop} {c : ExecutorConfig} {s s' : Step} {scope : Scope}
  {p q : Progress} {events : List Event} {a : Attempted} {plan plan' : List Step} {order : Int}
  {fuel : Nat} {ended : Ended}

theorem loggedAlike_of_reassigned {p p' : Pipeline} {w w' : Option Workflow}
    (h : p.Reassigned R p') (header : w'.map (·.header) = w.map (·.header)) :
    LoggedAlike p w p' w' := by
  obtain ⟨-, q, -, hp⟩ := h
  exact ⟨by rw [hp], by rw [hp], header⟩

/-- Steps that are the same but for their policies have the same numbers. -/
theorem stepAt?_reassigned (h : List.Forall₂ (Step.Reassigned R) plan plan') (order : Int) :
    (stepAt? plan order = none ∧ stepAt? plan' order = none) ∨
      ∃ s s', stepAt? plan order = some s ∧ stepAt? plan' order = some s' ∧ s.Reassigned R s' := by
  have hreverse := List.rel_reverse h
  unfold stepAt?
  generalize plan.reverse = steps at hreverse ⊢
  generalize plan'.reverse = steps' at hreverse ⊢
  induction hreverse with
  | nil => exact .inl ⟨rfl, rfl⟩
  | @cons s s' steps steps' related rest ih =>
    have horder : s'.order = s.order := by
      obtain ⟨q, -, rfl⟩ := related
      rfl
    rw [List.find?_cons, List.find?_cons, horder]
    cases hnumber : decide (s.order = order) with
    | true => exact .inr ⟨s, s', rfl, rfl, related⟩
    | false => exact ih

theorem startOf_reassigned (h : List.Forall₂ (Step.Reassigned R) plan plan') :
    startOf plan' = startOf plan := by
  cases h with
  | nil => rfl
  | cons related _ =>
    obtain ⟨q, -, rfl⟩ := related
    rfl

/-- A failed step is judged alike under policies that both pass over the failure, or both do not. -/
theorem conclude_under {q : Policy}
    (h : ∀ e, a.result = .error (.step e) → (q.onError = .skip ↔ s.onError = .skip)) :
    conclude (s.under q) scope a = conclude s scope a := by
  obtain ⟨p, attempts, result⟩ := a
  cases result with
  | ok out => rfl
  | error f =>
    cases f with
    | step e =>
      have hskip := h e rfl
      unfold conclude Step.under
      cases hq : q.onError <;> cases hs : s.onError <;> simp_all
    | mapping | validation | config | fault => rfl

/-! ## Stopping and repeating no times -/

theorem advance_spared (h : s.Reassigned Policy.Spares s') (scope : Scope) (p : Progress) :
    advance c s' scope p = advance c s scope p := by
  obtain ⟨q, rfl | ⟨hstop, rfl⟩, rfl⟩ := h
  · rfl
  · have hstop' : s.onError = .stop := hstop
    have hretries : retries s = 0 := by simp [retries, hstop']
    have hattempt : attempt c (s.under ⟨.retry, 0⟩) scope p = attempt c s scope p := by
      unfold attempt
      rw [hretries]
      rfl
    unfold advance
    rw [hattempt]
    show (if s.isActive then _ else _) = _
    split
    · congr 1
      funext a
      rw [conclude_under]
      simp [hstop']
    · rfl

theorem loop_spared (h : List.Forall₂ (Step.Reassigned Policy.Spares) plan plan') (scope : Scope)
    (p : Progress) (order : Int) (fuel : Nat) :
    loop c plan' scope p order fuel = loop c plan scope p order fuel := by
  refine loop_congr (fun order => (stepAt?_reassigned h order).imp_right ?_) scope p order fuel
  rintro ⟨s, s', hsome, hsome', related⟩
  exact ⟨s, s', hsome, hsome', advance_spared related⟩

/-! ## Runs in which no step is to be tried again -/

/-- No attempt of the visit failed in a way that a policy covers. -/
def Visit.IsCalm (c : ExecutorConfig) (v : Visit) : Prop :=
  ∀ a, v.attempted = some a →
    ∃ results, Attempts c v.step v.scope 1 v.before (retries v.step) v.events a results ∧
      ∀ e, .error (.step e) ∉ results

/-- Attempts without such a failure are a single one, which could have been made under any policy. -/
theorem Attempts.under {number repeats : Nat} {results : List (Except Failure Output)}
    (h : Attempts c s scope number p repeats events a results)
    (calm : ∀ e, .error (.step e) ∉ results) :
    (∀ e, a.result ≠ .error (.step e)) ∧ ∀ (q : Policy) (repeats' : Nat),
      Course (attemptFrom c (s.under q) scope number p repeats') events a := by
  cases h with
  | unnoted | unspaced | repeated => exact absurd List.mem_cons_self (calm _)
  | @settled _ _ _ q _ result once spent =>
    have hresult : ∀ e, result ≠ .error (.step e) := fun e he => calm e (he ▸ List.mem_cons_self)
    refine ⟨hresult, fun policy repeats' => ?_⟩
    rw [← List.append_nil events]
    cases repeats' with
    | zero => exact once.bind (.done _)
    | succ left =>
      refine Course.bind once ?_
      match result, hresult with
      | .ok out, _ => exact .done _
      | .error (.step e), hresult => exact absurd rfl (hresult e)
      | .error (.mapping _), _ | .error (.validation _), _ | .error (.config _), _
      | .error (.fault _), _ => exact .done _

/-- A calm visit is one under any policy. -/
theorem Visit.IsCalm.course {v : Visit} (calm : v.IsCalm c) (happens : v.Happens c)
    (related : v.step.Reassigned R s') :
    Course (advance c s' v.scope v.before) v.events v.next := by
  obtain ⟨q, -, rfl⟩ := related
  have hactive : (v.step.under q).isActive = v.step.isActive := rfl
  unfold Visit.Happens at happens
  unfold advance Visit.next
  rw [hactive]
  cases hattempted : v.attempted with
  | none =>
    rw [hattempted] at happens
    rw [happens.1, happens.2]
    exact .done _
  | some a =>
    rw [hattempted] at happens
    obtain ⟨results, attempts, hcalm⟩ := calm a hattempted
    obtain ⟨hresult, hcourse⟩ := attempts.under hcalm
    rw [happens.1, ← List.append_nil v.events, if_pos rfl]
    refine (hcourse q (retries (v.step.under q))).bind ?_
    rw [conclude_under fun e he => absurd he (hresult e)]
    exact .done _

theorem Trail.reassigned {visits : List Visit}
    (trail : Trail c plan fuel scope p order visits ended) (calm : ∀ v ∈ visits, v.IsCalm c)
    (h : List.Forall₂ (Step.Reassigned R) plan plan') :
    Course (loop c plan' scope p order fuel) (visits.flatMap Visit.events) ended := by
  induction trail with
  | @leave fuel _ _ order absent =>
    obtain ⟨-, hnone'⟩ | ⟨s, s', hsome, -, -⟩ := stepAt?_reassigned h order
    · rw [loop_of_absent hnone']
      exact .done _
    · rw [absent] at hsome
      cases hsome
  | @exhaust _ _ order _ present =>
    obtain ⟨hnone, -⟩ | ⟨s, s', hsome, hsome', -⟩ := stepAt?_reassigned h order
    · rw [present] at hnone
      cases hnone
    · rw [loop, hsome']
      exact .done _
  | @goOn _ v order _ _ _ _ _ present happens next _ ih =>
    obtain ⟨hcalm, hrest⟩ := List.forall_mem_cons.mp calm
    obtain ⟨hnone, -⟩ | ⟨s, s', hsome, hsome', related⟩ := stepAt?_reassigned h order
    · rw [present] at hnone
      cases hnone
    · rw [present] at hsome
      cases hsome
      rw [loop, hsome', List.flatMap_cons]
      have hvisit := hcalm.course happens related
      rw [next] at hvisit
      exact hvisit.bind (ih hrest)
  | @stop _ v order _ _ _ present happens next =>
    obtain ⟨hcalm, -⟩ := List.forall_mem_cons.mp calm
    obtain ⟨hnone, -⟩ | ⟨s, s', hsome, hsome', related⟩ := stepAt?_reassigned h order
    · rw [present] at hnone
      cases hnone
    · rw [present] at hsome
      cases hsome
      rw [loop, hsome', List.flatMap_cons]
      have hvisit := hcalm.course happens related
      rw [next] at hvisit
      exact hvisit.bind (.done _)

/-! ## Whole runs -/

variable {logged : Bool} {pipeline pipeline' : Pipeline} {r : InboundRecord}
  {w w' : Option Workflow} {out : Except Fault RunResult}

/-- No attempt of a run failed in a way that a policy covers. -/
def IsCalm (c : ExecutorConfig) (logged : Bool) (p : Pipeline) (r : InboundRecord)
    (w : Option Workflow) (events : List Event) (out : Except Fault RunResult) : Prop :=
  ∀ result, out = .ok result → ∃ parts : Parts c logged p r w events result,
    result.scope = parts.ended.scope ∧ ∀ v ∈ parts.visits, v.IsCalm c

/-- A calm run is one under any policies. -/
theorem IsCalm.course (calm : IsCalm c logged pipeline r w events out)
    (course : Course (pipeline.run c logged r w) events out)
    (h : pipeline.Reassigned R pipeline') (header : w'.map (·.header) = w.map (·.header)) :
    Course (pipeline'.run c logged r w') events out := by
  have halike := loggedAlike_of_reassigned h header
  have hopen := halike.openEntry (r := r) h.destinationLabel logged
  cases out with
  | ok result =>
    obtain ⟨parts, hscope, hcalm⟩ := calm result rfl
    have hloop := parts.trail.reassigned hcalm h.plan
    rw [← startOf_reassigned h.plan, ← steps_eq_loop] at hloop
    unfold Pipeline.run
    rw [parts.events_eq, hopen]
    refine parts.opens.bind (hloop.bind ?_)
    have hlast : Course (pure (.ok ⟨parts.ended.progress.outcomes, parts.ended.scope, result.entry,
        parts.ended.error⟩) : Activity (Except Fault RunResult)) [] (.ok result) := by
      rw [← parts.outcomes_eq, ← parts.error_eq, ← hscope]
      exact .done _
    rw [halike.close, ← List.append_nil parts.closing]
    exact parts.closes.bind hlast
  | error f =>
    obtain ⟨before, after, opened, rfl, opens, rest⟩ := course_bind_iff.mp course
    cases opened with
    | error g =>
      unfold Pipeline.run
      rw [hopen]
      exact opens.bind rest
    | ok entry =>
      -- what has been opened is closed
      exfalso
      obtain ⟨_, _, ended, rfl, taken, last⟩ := course_bind_iff.mp rest
      obtain ⟨_, _, closed, rfl, closes, final⟩ := course_bind_iff.mp last
      have isOpen := open_of_steps (all_open_of_openEntry opens) taken
      obtain ⟨entry', rfl⟩ := exists_of_close isOpen closes
      obtain ⟨-, hf⟩ := course_pure_iff.mp final
      cases hf

/-! ## What is reported of a calm run -/

/-- Every visit is reported with an outcome. -/
theorem Trail.reported {visits : List Visit}
    (trail : Trail c plan fuel scope p order visits ended) :
    (∀ o ∈ p.outcomes, o ∈ ended.progress.outcomes) ∧
      ∀ v ∈ visits, ∃ o ∈ ended.progress.outcomes, v.Ends o v.next := by
  induction trail with
  | leave => exact ⟨fun _ ho => ho, List.forall_mem_nil _⟩
  | exhaust => exact ⟨fun _ ho => ho, List.forall_mem_nil _⟩
  | @goOn _ v _ order' p' scope' _ _ _ happens next _ ih =>
    obtain ⟨o, ends⟩ := Visit.ends happens
    have houtcomes := (Visit.leaves happens ends).1
    rw [next, Next.progress_goOn] at houtcomes
    rw [houtcomes] at ih
    obtain ⟨kept, reported⟩ := ih
    exact ⟨fun o ho => kept o (List.mem_append_left _ ho), List.forall_mem_cons.mpr
      ⟨⟨o, kept o (List.mem_append_right _ (List.mem_singleton_self o)), ends⟩, reported⟩⟩
  | @stop _ v _ p' scope' error _ happens next =>
    obtain ⟨o, ends⟩ := Visit.ends happens
    have houtcomes := (Visit.leaves happens ends).1
    rw [next, Next.progress_stop] at houtcomes
    rw [houtcomes]
    exact ⟨fun o ho => List.mem_append_left _ ho, List.forall_mem_singleton.mpr
      ⟨o, List.mem_append_right _ (List.mem_singleton_self o), ends⟩⟩

/-- A visit is calm that is reported without an error and with no more than one attempt. -/
theorem Visit.isCalm_of_ends {v : Visit} {o : StepOutcome} (happens : v.Happens c)
    (ends : v.Ends o v.next) (unfailed : o.error = none) (once : o.attempts ≤ 1) : v.IsCalm c := by
  intro a ha
  rw [Visit.Happens, ha] at happens
  generalize v.next = next at ends
  cases ends with
  | passedOver _ untried _ =>
    rw [ha] at untried
    cases untried
  | skipped | failed => cases unfailed
  | @succeeded a' out tried ok =>
    obtain rfl : a = a' := Option.some.inj (ha.symm.trans tried)
    have hattempting := attempting_of_course happens.2
    generalize retries v.step = repeats at hattempting ⊢
    generalize v.events = events at hattempting ⊢
    cases hattempting with
    | settled first spent =>
      refine ⟨_, .settled first spent, fun e he => ?_⟩
      cases (List.mem_singleton.mp he).trans ok
    | unnoted | unspaced => cases ok
    | repeated _ _ _ later =>
      have htwo : 2 ≤ a.attempts := le_attempts later
      have hone : a.attempts ≤ 1 := once
      omega

/-- A run is calm that is reported without an error, and with no more than one attempt at a step. -/
theorem isCalm_of_outcomes (course : Course (pipeline.run c logged r w) events out)
    (h : ∀ result, out = .ok result → ∀ o ∈ result.outcomes, o.error = none ∧ o.attempts ≤ 1) :
    IsCalm c logged pipeline r w events out := by
  intro result hresult
  subst hresult
  obtain ⟨parts, hscope⟩ := exists_parts_scope course
  refine ⟨parts, hscope, fun v hv => ?_⟩
  obtain ⟨o, ho, ends⟩ := parts.trail.reported.2 v hv
  rw [← parts.outcomes_eq] at ho
  obtain ⟨unfailed, once⟩ := h result rfl o ho
  exact Visit.isCalm_of_ends (parts.trail.happens v hv).2 ends unfailed once

/-! ## Policies -/

/-- A run in which no attempt fails in a way that a policy covers goes the same, whatever the policies
of its steps and of its destination are changed to: it ends with the same result, having asked for the
same things in the same order, and leaves the same behind. And any run is the same if steps at whose
failure it is to stop are to be repeated no times instead. -/
theorem policies_unseen (c : ExecutorConfig) (logged : Bool) (p : Pipeline) (r : InboundRecord)
    (w w' : Option Workflow) (header : w'.map (·.header) = w.map (·.header)) :
    (∀ p', p.Reassigned (fun _ _ => True) p' →
      ∀ {σ : Type} (surroundings : Surroundings σ) (st : σ),
        let ran := carryOut surroundings (p.run c logged r w) st
        let events := Activity.events surroundings (p.run c logged r w) st
        IsCalm c logged p r w events ran.1 →
          carryOut surroundings (p'.run c logged r w') st = ran ∧
            Activity.events surroundings (p'.run c logged r w') st = events) ∧
    ∀ p', p.Reassigned Policy.Spares p' → p'.run c logged r w' = p.run c logged r w := by
  constructor
  · intro p' h σ surroundings st ran events calm
    exact carryOut_of_course (calm.course (course_events surroundings _ st) h header)
  · intro p' h
    have halike := loggedAlike_of_reassigned h header
    have hsteps : ∀ scope q, steps c p'.plan scope q = steps c p.plan scope q := fun scope q => by
      rw [steps_eq_loop, steps_eq_loop, startOf_reassigned h.plan, loop_spared h.plan]
    unfold Pipeline.run
    rw [halike.openEntry h.destinationLabel]
    simp only [hsteps, halike.close]

/-- A pipeline that sends its records on, under a policy of its destination. -/
def forwarding (q : Policy) : Pipeline where
  id := "forwarding"
  sourceKind := .senderApp
  applicationId := some 1
  destinationKind := some .rest
  restId := some 7
  delivery := Delivery.under q {}

theorem forwarding_policies_unseen :
    let world : World Recording := { now := ⟨0, none⟩, destinations := {} }
    let run := fun q => (forwarding q).run {} true reading none
    let ran := carryOut (World.reply Recording.adapter) (run ⟨.stop, 0⟩) world
    let events := Activity.events (World.reply Recording.adapter) (run ⟨.stop, 0⟩) world
    IsCalm {} true (forwarding ⟨.stop, 0⟩) reading none events ran.1 ∧ (calls events).length = 1 ∧
      carryOut (World.reply Recording.adapter) (run ⟨.skip, 3⟩) world = ran ∧
      run ⟨.retry, 0⟩ = run ⟨.stop, 0⟩ := by
  intro world run ran events
  have reassigned : ∀ q q' R, R q q' → (forwarding q).Reassigned R (forwarding q') :=
    fun q q' R h => ⟨.nil, q', h, rfl⟩
  have sorted : (forwarding ⟨.stop, 0⟩).sortedSteps = [] := Pipeline.sortedSteps_eq .nil
  have calm : IsCalm {} true (forwarding ⟨.stop, 0⟩) reading none events ran.1 := by
    refine isCalm_of_outcomes (course_events _ _ _) fun result hresult => ?_
    obtain ⟨result', returned, reported⟩ : ∃ result, ran.1 = .ok result ∧
        ∀ o ∈ result.outcomes, o.error = none ∧ o.attempts ≤ 1 := by
      simp only [ran, run]
      unfold Pipeline.run Pipeline.plan
      rw [sorted]
      decide +kernel
    obtain rfl : result = result' := Except.ok.inj (hresult.symm.trans returned)
    exact reported
  have one : (calls events).length = 1 := by
    simp only [events, run]
    unfold Pipeline.run Pipeline.plan
    rw [sorted]
    decide +kernel
  obtain ⟨hcalm, hspared⟩ :=
    policies_unseen {} true (forwarding ⟨.stop, 0⟩) reading none none rfl
  exact ⟨calm, one, (hcalm _ (reassigned _ ⟨.skip, 3⟩ _ trivial) _ _ calm).1,
    hspared _ (reassigned _ ⟨.retry, 0⟩ _ (.inr ⟨rfl, rfl⟩))⟩

end Run
end Conveyor
