import Conveyor.Proofs.Run.Journal
import Conveyor.Proofs.Run.Renumbering

/-!
# Runs after an insertion

A step that is not active is passed over, and the steps behind it have moved up together with the
branches to them. So a pipeline with such a step inserted runs as it did before, unless its settings
mention the outputs of steps by their numbers: it makes the same calls and ends alike, under the new
numbers (`insertStep_unnoticed`). What can tell the two apart is the number of steps that a run may
take, since passing over a step counts, and the destinations that its log entry names.
-/

namespace Conveyor

/-- The name under which the output of the step of some number is bound. -/
def Step.IsOutputName (name : String) : Prop := ∃ n : Nat, name = s!"step{n}_output"

theorem Step.isOutputName_outputName {s : Step} (h : 0 ≤ s.order) : IsOutputName s.outputName := by
  obtain ⟨n, hn⟩ := Int.eq_ofNat_of_zero_le h
  refine ⟨n, ?_⟩
  unfold outputName
  rw [hn]
  rfl

/-- Such a name starts with the word for a step. -/
theorem Step.IsOutputName.head? {name : String} (h : IsOutputName name) :
    name.toList.head? = some 's' := by
  obtain ⟨n, rfl⟩ := h
  show (("step" ++ toString n) ++ "_output").toList.head? = some 's'
  rw [String.toList_append, String.toList_append]
  rfl

namespace Run

open Activity Validation

/-! ## Outcomes -/

/-- The texts of failures that differ at most in the number of the step that they quote. -/
def TextRequoted (order order' : Int) (text text' : String) : Prop :=
  ∃ f f' : Failure, f.Requoted order order' f' ∧ text = outcomeText f ∧ text' = outcomeText f'

/-- The same outcome of a step under another number. -/
structure OutcomeMoved (number : Int → Int) (o o' : StepOutcome) : Prop where
  order : o'.order = number o.order
  name : o'.name = o.name
  state : o'.state = o.state
  attempts : o'.attempts = o.attempts
  error : Option.Rel (TextRequoted o.order o'.order) o.error o'.error

/-- The same outcomes under the new numbers, and among them those of a step that was passed over
whenever the run came to it. -/
structure OutcomesMoved (i : Nat) (new : Step) (os os' : List StepOutcome) : Prop where
  kept : List.Forall₂ (OutcomeMoved (shifted i)) os (os'.filter fun o => o.order ≠ i + 1)
  passedOver : ∀ o ∈ os', o.order = i + 1 → o = ⟨i + 1, new.name, .skipped, 0, none⟩

variable {i : Nat} {new placed : Step} {os os' : List StepOutcome}

theorem outcomesMoved_nil (i : Nat) (new : Step) : OutcomesMoved i new [] [] :=
  ⟨.nil, fun _ h => absurd h List.not_mem_nil⟩

theorem OutcomesMoved.note (h : OutcomesMoved i new os os') {o o' : StepOutcome}
    (moved : OutcomeMoved (shifted i) o o') : OutcomesMoved i new (os ++ [o]) (os' ++ [o']) := by
  have hne : o'.order ≠ i + 1 := by
    rw [moved.order]
    exact shifted_ne i o.order
  refine ⟨?_, fun x hx hnew => ?_⟩
  · rw [List.filter_append, List.filter_cons_of_pos (by simpa using hne), List.filter_nil]
    exact List.rel_append h.kept (.cons moved .nil)
  · rcases List.mem_append.mp hx with hold | hlast
    · exact h.passedOver x hold hnew
    · rw [List.mem_singleton.mp hlast] at hnew
      exact absurd hnew hne

theorem OutcomesMoved.passOver (h : OutcomesMoved i new os os') :
    OutcomesMoved i new os (os' ++ [⟨i + 1, new.name, .skipped, 0, none⟩]) := by
  refine ⟨?_, fun x hx hnew => ?_⟩
  · rw [List.filter_append, List.filter_cons_of_neg (by simp), List.filter_nil, List.append_nil]
    exact h.kept
  · rcases List.mem_append.mp hx with hold | hlast
    · exact h.passedOver x hold hnew
    · exact List.mem_singleton.mp hlast

/-! ## Where the runs stand -/

/-- The runs stand at the same step, or one of them before the new step and the other behind it. -/
def StandsAt (i : Nat) (order order' : Int) : Prop :=
  order' = shifted i order ∨ order = i + 1 ∧ order' = i + 1

theorem standsAt_add_one (i : Nat) (order : Int) :
    StandsAt i (order + 1) (shifted i order + 1) := by
  by_cases h : order = i
  · right
    rw [h]
    exact ⟨rfl, by rw [shifted, if_pos le_rfl]⟩
  · exact .inl (shifted_add_one h)

/-- A plan, and the plan with a step in it that is not active, of steps that do not mention outputs
by the number of a step. -/
structure Extends (i : Nat) (placed : Step) (plan plan' : List Step) : Prop where
  nonempty : plan ≠ []
  first : startOf plan = 1
  parts : plan' = (plan.take i).map (Step.renumbered (shifted i)) ++
    placed :: (plan.drop i).map (Step.renumbered (shifted i))
  order : placed.order = i + 1
  inactive : placed.isActive = false
  numbers : ∀ s ∈ plan, 0 ≤ s.order
  mentions : ∀ s ∈ plan, ∀ name ∈ s.mentioned, ¬ Step.IsOutputName name

namespace Extends

variable {plan plan' : List Step}

theorem find?_renumbered (i : Nat) (steps : List Step) (order : Int) :
    (steps.map (Step.renumbered (shifted i))).find? (·.order = shifted i order) =
      (steps.find? (·.order = order)).map (Step.renumbered (shifted i)) := by
  rw [List.find?_map]
  congr 2
  funext s
  exact decide_eq_decide.mpr shifted_inj

/-- Every step is found under its new number. -/
theorem stepAt?_shifted (h : Extends i placed plan plan') (order : Int) :
    stepAt? plan' (shifted i order) = (stepAt? plan order).map (Step.renumbered (shifted i)) := by
  have hplaced : decide (placed.order = shifted i order) = false := by
    rw [h.order]
    exact decide_eq_false (shifted_ne i order).symm
  rw [h.parts]
  conv_rhs => rw [← List.take_append_drop i plan]
  unfold stepAt?
  rw [List.reverse_append, List.reverse_append, List.reverse_cons, List.append_assoc,
    List.find?_append, List.find?_append, List.find?_append, ← List.map_reverse,
    ← List.map_reverse, find?_renumbered, find?_renumbered,
    List.find?_cons_of_neg (by simpa using hplaced), List.find?_nil]
  cases (plan.drop i).reverse.find? (·.order = order) <;> rfl

/-- The new step is found under the number that it was given. -/
theorem stepAt?_placed (h : Extends i placed plan plan') : stepAt? plan' (i + 1) = some placed := by
  have hbehind : ((plan.drop i).map (Step.renumbered (shifted i))).reverse.find?
      (·.order = (i : Int) + 1) = none := by
    refine List.find?_eq_none.mpr fun s hs => ?_
    obtain ⟨s, -, rfl⟩ := List.mem_map.mp (List.mem_reverse.mp hs)
    exact fun found => shifted_ne i s.order (of_decide_eq_true found)
  rw [h.parts]
  unfold stepAt?
  rw [List.reverse_append, List.reverse_cons, List.append_assoc, List.find?_append, hbehind,
    Option.none_or, List.cons_append, List.find?_cons_of_pos (by simpa using h.order)]

/-- Both runs start with number one, one of them at the new step if that has come first. -/
theorem standsAt_start (h : Extends i placed plan plan') :
    StandsAt i (startOf plan) (startOf plan') := by
  rw [h.first, h.parts]
  cases i with
  | zero =>
    right
    exact ⟨rfl, h.order⟩
  | succ i =>
    obtain ⟨s, rest, rfl⟩ := List.exists_cons_of_ne_nil h.nonempty
    left
    show shifted (i + 1) s.order = _
    rw [show s.order = 1 from h.first]

end Extends

/-! ## One step -/

/-- The texts that two runs end with when the same step of the plan has failed in both. -/
def AbortMoved (i : Nat) (plan : List Step) (text text' : String) : Prop :=
  ∃ s ∈ plan, ∃ f f' : Failure, f.Requoted s.order (shifted i s.order) f' ∧
    text = abortText s f ∧ text' = abortText (s.renumbered (shifted i)) f'

/-- Scopes in which everything but the outputs under the numbers of their steps is the same. -/
abbrev ScopesAgree (scope scope' : Scope) : Prop :=
  scope.AgreeOn (fun name => ¬ Step.IsOutputName name) scope'

/-- The runs stand alike after a step, or have ended alike. -/
inductive Next.Beside (i : Nat) (placed : Step) (plan : List Step) : Next → Next → Prop where
  | goOn {q q' : Progress} {scope scope' : Scope} {order order' : Int}
      (progress : q.Beside (OutcomesMoved i placed) q')
      (agree : ScopesAgree scope scope') (stands : StandsAt i order order') :
      Next.Beside i placed plan (.goOn q scope order) (.goOn q' scope' order')
  | stop {q q' : Progress} {scope scope' : Scope} {error error' : Option String}
      (progress : q.Beside (OutcomesMoved i placed) q')
      (agree : ScopesAgree scope scope') (moved : Option.Rel (AbortMoved i plan) error error') :
      Next.Beside i placed plan (.stop q scope error) (.stop q' scope' error')

variable {plan plan' : List Step} {q q' : Progress} {scope scope' : Scope} {c : ExecutorConfig}

theorem Progress.Beside.note (h : q.Beside (OutcomesMoved i placed) q') {o o' : StepOutcome}
    (moved : OutcomeMoved (shifted i) o o') :
    (note q o).Beside (OutcomesMoved i placed) (note q' o') :=
  ⟨h.entry, h.isOpen, h.outcomes.note moved, h.sent, h.received⟩

theorem Progress.Beside.passOver (h : q.Beside (OutcomesMoved i placed) q') :
    q.Beside (OutcomesMoved i placed) (Run.note q' ⟨i + 1, placed.name, .skipped, 0, none⟩) :=
  ⟨h.entry, h.isOpen, h.outcomes.passOver, h.sent, h.received⟩

theorem conclude_of_skipped {s : Step} {a : Attempted} {e : StepError}
    (failure : a.result = .error (.step e)) (policy : s.onError = .skip) :
    conclude s scope a = .goOn (note a.progress ⟨s.order, s.name, .skipped, a.attempts,
      some e.message⟩) scope (s.order + 1) := by
  simp only [conclude, failure, policy]
  rfl

theorem conclude_of_failed {s : Step} {a : Attempted} {f : Failure} (failure : a.result = .error f)
    (policy : ∀ e, f = .step e → s.onError ≠ .skip) :
    conclude s scope a = .stop (note a.progress ⟨s.order, s.name, .failed, attemptsOf a f,
      some (outcomeText f)⟩) scope (some (abortText s f)) := by
  simp only [conclude, failure]
  rfl

/-- A branch leads to the same step as before, and otherwise the runs go on with the next number. -/
theorem successor_renumbered (s : Step) (holds : Bool) :
    StandsAt i (successor s holds) (successor (s.renumbered (shifted i)) holds) := by
  have hnext := standsAt_add_one i s.order
  unfold successor
  rw [Step.renumbered_kind]
  split
  · rename_i hkind
    have hbranch : (s.renumbered (shifted i)).branch =
        { s.branch with
          onTrue := s.branch.onTrue.map (shifted i)
          onFalse := s.branch.onFalse.map (shifted i) } := if_pos hkind
    have htarget : ∀ target : Option Int, StandsAt i (target.getD (s.order + 1))
        ((target.map (shifted i)).getD (shifted i s.order + 1)) := by
      rintro (_ | n)
      · exact hnext
      · exact .inl rfl
    rw [hbranch]
    cases holds with
    | true => exact htarget s.branch.onTrue
    | false => exact htarget s.branch.onFalse
  · exact hnext

theorem attemptsOf_requoted {order order' : Int} {f f' : Failure} {a a' : Attempted}
    (h : f.Requoted order order' f') (same : a'.attempts = a.attempts) :
    attemptsOf a' f' = attemptsOf a f := by
  cases h with
  | same f =>
    cases f with
    | step e => exact same
    | _ => rfl
  | needsObject stepKind valueKind => exact same
  | noDestination => rfl

/-- Two runs that have taken the same step alike stand alike, or have ended alike. -/
theorem beside_conclude {s : Step} (hs : s ∈ plan) (number : 0 ≤ s.order)
    (agree : ScopesAgree scope scope') {a a' : Attempted}
    (h : a.Beside (OutcomesMoved i placed) s.order (shifted i s.order) a') :
    Next.Beside i placed plan (conclude s scope a)
      (conclude (s.renumbered (shifted i)) scope' a') := by
  obtain ⟨progress, attempts, result⟩ := h
  have hnumber : 0 ≤ (s.renumbered (shifted i)).order := by
    show 0 ≤ shifted i s.order
    unfold shifted
    split <;> omega
  generalize hr : a.result = x at result
  generalize hr' : a'.result = x' at result
  cases result with
  | ok out =>
    simp only [conclude, hr, hr']
    refine .goOn (progress.note ⟨rfl, rfl, rfl, attempts, .none⟩) ?_
      (successor_renumbered s out.holds)
    refine agree.bind out.value fun name hname => ?_
    have hown : name ≠ s.outputName := fun heq =>
      hname (heq ▸ Step.isOutputName_outputName number)
    have hown' : name ≠ (s.renumbered (shifted i)).outputName := fun heq =>
      hname (heq ▸ Step.isOutputName_outputName hnumber)
    rw [List.mem_cons, List.mem_cons, or_iff_right hown, or_iff_right hown']
    exact Iff.rfl
  | @error f f' requoted =>
    by_cases hskip : (∃ e, f = .step e) ∧ s.onError = .skip
    · obtain ⟨⟨e, rfl⟩, policy⟩ := hskip
      rcases requoted.step_or with ⟨e₁, e', he, rfl⟩ | ⟨hne, -⟩
      · rw [conclude_of_skipped hr policy,
          conclude_of_skipped (s := s.renumbered (shifted i)) hr' policy]
        exact .goOn
          (progress.note ⟨rfl, rfl, rfl, attempts, .some ⟨_, _, requoted, rfl, rfl⟩⟩) agree
          (standsAt_add_one i s.order)
      · exact absurd rfl (hne e)
    · have policy : ∀ e, f = .step e → s.onError ≠ .skip := fun e he hs => hskip ⟨⟨e, he⟩, hs⟩
      have policy' : ∀ e, f' = .step e → (s.renumbered (shifted i)).onError ≠ .skip := by
        intro e' he' hs
        rcases requoted.step_or with ⟨e, _, he, -⟩ | ⟨-, hne⟩
        · exact policy e he hs
        · exact hne e' he'
      rw [conclude_of_failed hr policy, conclude_of_failed hr' policy']
      exact .stop (progress.note ⟨rfl, rfl, rfl, attemptsOf_requoted requoted attempts,
        .some ⟨f, f', requoted, rfl, rfl⟩⟩) agree (.some ⟨s, hs, f, f', requoted, rfl, rfl⟩)

/-- A step of the plan is taken as the same step is under its new number. -/
theorem mirrors_advance {s : Step} (hs : s ∈ plan) (number : 0 ≤ s.order)
    (agree : ScopesAgree scope scope')
    (mentions : ∀ name ∈ s.mentioned, ¬ Step.IsOutputName name)
    (h : q.Beside (OutcomesMoved i placed) q') :
    Mirrors (fun _ => False) (Next.Beside i placed plan) (advance c s scope q)
      (advance c (s.renumbered (shifted i)) scope' q') := by
  have hactive : (s.renumbered (shifted i)).isActive = s.isActive := rfl
  unfold advance
  rw [hactive]
  split
  · refine (mirrors_attempt (shifted i) agree mentions h).andThen fun a a' beside => ?_
    exact mirrors_pure (beside_conclude hs number agree beside)
  · exact mirrors_pure (.goOn (h.note ⟨rfl, rfl, rfl, rfl, .none⟩) agree
      (standsAt_add_one i s.order))

/-! ## Whole runs -/

/-- What two runs end with before their entries are closed. -/
structure Ended.Beside (i : Nat) (placed : Step) (plan : List Step) (e e' : Ended) : Prop where
  progress : e.progress.Beside (OutcomesMoved i placed) e'.progress
  agree : ScopesAgree e.scope e'.scope
  error : Option.Rel (AbortMoved i plan) e.error e'.error

/-- The run has been stopped for taking too many steps, and its entry can be closed. -/
structure Exhausted (c : ExecutorConfig) (e : Ended) : Prop where
  error : e.error = some (exhaustion c)
  isOpen : ∀ entry, e.progress.entry = some entry → entry.isTerminal = false

theorem Progress.Beside.isOpen_right (h : q.Beside (OutcomesMoved i placed) q') :
    ∀ entry, q'.entry = some entry → entry.isTerminal = false := by
  intro entry hentry
  have hrel := h.entry
  have hopen := h.isOpen
  generalize q.entry = e at hrel hopen
  rw [hentry] at hrel
  cases hrel with
  | @some e _ beside =>
    obtain ⟨destination, message, rfl⟩ := beside
    exact hopen e rfl

/-- Both runs end behind the last step. -/
theorem Extends.mirrors_leave (h : Extends i placed plan plan')
    (beside : q.Beside (OutcomesMoved i placed) q') (agree : ScopesAgree scope scope') {order : Int}
    (absent : stepAt? plan order = none) (fuel fuel' : Nat) :
    Mirrors (Exhausted c) (Ended.Beside i placed plan) (loop c plan scope q order fuel)
      (loop c plan' scope' q' (shifted i order) fuel') := by
  have absent' : stepAt? plan' (shifted i order) = none := by
    rw [h.stepAt?_shifted, absent]
    rfl
  rw [loop_of_absent absent, loop_of_absent absent']
  exact mirrors_pure ⟨beside, agree, .none⟩

/-- Going through the longer plan mirrors going through the plan, unless it takes too many steps.
It passes over the new step whenever it comes there, so it may take more steps, and never fewer. -/
theorem Extends.mirrors_loop (h : Extends i placed plan plan') {fuel fuel' : Nat}
    (hfuel : fuel' ≤ fuel) (beside : q.Beside (OutcomesMoved i placed) q')
    (agree : ScopesAgree scope scope') {order order' : Int} (stands : StandsAt i order order') :
    Mirrors (Exhausted c) (Ended.Beside i placed plan) (loop c plan scope q order fuel)
      (loop c plan' scope' q' order' fuel') := by
  induction fuel' generalizing fuel q q' scope scope' order order' with
  | zero =>
    cases hfound' : stepAt? plan' order' with
    | some s =>
      refine .excuse fun events ended course => ?_
      simp only [loop, hfound'] at course
      obtain ⟨-, rfl⟩ := course_pure_iff.mp course
      exact ⟨rfl, beside.isOpen_right⟩
    | none =>
      rcases stands with rfl | ⟨rfl, rfl⟩
      · rw [h.stepAt?_shifted, Option.map_eq_none_iff] at hfound'
        exact h.mirrors_leave beside agree hfound' fuel 0
      · rw [h.stepAt?_placed] at hfound'
        cases hfound'
  | succ fuel' ih =>
    rcases stands with rfl | ⟨rfl, rfl⟩
    · cases hfound : stepAt? plan order with
      | none => exact h.mirrors_leave beside agree hfound fuel (fuel' + 1)
      | some s =>
        obtain ⟨fuel, rfl⟩ : ∃ n, fuel = n + 1 := ⟨fuel - 1, by omega⟩
        have hs := mem_of_stepAt? hfound
        have hfound' : stepAt? plan' (shifted i order) = some (s.renumbered (shifted i)) := by
          rw [h.stepAt?_shifted, hfound]
          rfl
        simp only [loop, hfound, hfound']
        refine (mirrors_advance hs (h.numbers s hs) agree (h.mentions s hs) beside).andThen
          fun next next' both => ?_
        cases both with
        | goOn progress agree stands =>
          exact ih (Nat.le_of_succ_le_succ hfuel) progress agree stands
        | stop progress agree moved => exact mirrors_pure ⟨progress, agree, moved⟩
    · -- the new step is passed over, which takes one step of the fuel
      have hpass : advance c placed scope' q' =
          pure (.goOn (note q' ⟨i + 1, placed.name, .skipped, 0, none⟩) scope' (i + 1 + 1)) := by
        unfold advance
        rw [h.inactive, h.order]
        rfl
      simp only [loop, h.stepAt?_placed, hpass]
      refine ih (Nat.le_of_succ_le hfuel) beside.passOver agree (.inl ?_)
      rw [shifted, if_neg (by omega)]

theorem Extends.mirrors_steps (h : Extends i placed plan plan')
    (beside : q.Beside (OutcomesMoved i placed) q') (agree : ScopesAgree scope scope') :
    Mirrors (Exhausted c) (Ended.Beside i placed plan) (steps c plan scope q)
      (steps c plan' scope' q') := by
  rw [steps_eq_loop, steps_eq_loop]
  exact h.mirrors_loop le_rfl beside agree h.standsAt_start

/-! ## Opening and closing the entry -/

variable {p : Pipeline} {r : InboundRecord} {w : Option Workflow}

/-- What opening an entry has come to: a failure in both runs, or entries that can be closed. -/
inductive OpenedAlike : Except Fault (Option LogEntry) → Except Fault (Option LogEntry) → Prop where
  | failed (f : Fault) : OpenedAlike (.error f) (.error f)
  | ok {e e' : Option LogEntry} (beside : Option.Rel LogEntry.Beside e e')
      (isOpen : ∀ entry, e = some entry → entry.isTerminal = false) : OpenedAlike (.ok e) (.ok e')

/-- The entry of a run may name other destinations after an insertion. -/
theorem mirrors_openEntry (logged : Bool) (r : InboundRecord) (p : Pipeline) (i : Nat) (new : Step)
    (w : Option Workflow) :
    Mirrors (fun _ => False) OpenedAlike (openEntry logged r p w)
      (openEntry logged r (p.insertStep i new) w) := by
  unfold openEntry
  cases logged with
  | false => exact mirrors_pure (.ok .none fun _ h => by cases h)
  | true =>
    have hstart : Mirrors (fun _ => False)
        (fun x x' => OpenedAlike (x.map some) (x'.map some)) (Journal.start r p w)
          (Journal.start r (p.insertStep i new) w) := by
      unfold Journal.start
      refine mirrors_request_bind .now fun created => ?_
      cases Journal.expiry created (w.map (·.header.retentionHours)) with
      | error f => exact mirrors_pure (.failed f)
      | ok expires =>
        refine mirrors_request_bind .drawId fun id => .append _ _ (mirrors_pure (.ok ?_ ?_))
        · exact .some ⟨_, none, rfl⟩
        · rintro _ ⟨⟩
          rfl
    exact hstart.andThen fun x x' opened => mirrors_pure opened

/-- An entry that is open is closed, whatever message is left in it. -/
theorem mirrors_finish {e e' : LogEntry} (beside : e.Beside e') (isOpen : e.isTerminal = false)
    (end_ : Journal.Ending) (message : String) (w : Option Workflow) :
    Mirrors (fun _ => False) (fun x x' => ∃ f f', x = .ok f ∧ x' = .ok f' ∧ f.Beside f')
      (Journal.finish e end_ w) (Journal.finish e' { end_ with message } w) := by
  obtain ⟨destination, text, rfl⟩ := beside
  have isOpen' : ({ e with destination, message := text } : LogEntry).isTerminal = false := isOpen
  unfold Journal.finish
  rw [isOpen, isOpen']
  refine mirrors_request_bind .now fun updated => ?_
  have hclosed : (Journal.close e end_ updated).Beside
      (Journal.close { e with destination, message := text } { end_ with message } updated) :=
    ⟨destination, some message, rfl⟩
  dsimp only
  split
  · exact mirrors_request_bind (.discard e.id) fun _ => mirrors_pure ⟨_, _, rfl, rfl, hclosed⟩
  · exact .update _ _ (mirrors_pure ⟨_, _, rfl, rfl, hclosed⟩)

theorem isNone_eq_of_rel {α β : Type} {R : α → β → Prop} {a : Option α} {b : Option β}
    (h : Option.Rel R a b) : b.isNone = a.isNone := by
  cases h <;> rfl

/-- The entries of runs that have ended alike are closed alike. -/
theorem mirrors_close {e e' : Ended} (h : e.Beside i placed plan e') (new : Step) :
    Mirrors (fun _ => False)
      (fun x x' => ∃ entry entry', x = .ok entry ∧ x' = .ok entry' ∧
        Option.Rel LogEntry.Beside entry entry')
      (close r p w e) (close r (p.insertStep i new) w e') := by
  obtain ⟨⟨entry, isOpen, -, sent, received⟩, -, error⟩ := h
  have hsuccess := isNone_eq_of_rel error
  unfold close
  rw [hsuccess, sent, received]
  generalize e.progress.entry = opened at entry isOpen ⊢
  generalize e'.progress.entry = opened' at entry ⊢
  cases entry with
  | none => exact mirrors_pure ⟨none, none, rfl, rfl, .none⟩
  | @some x x' beside =>
    refine (mirrors_finish beside (isOpen x rfl) _ _ w).andThen fun closed closed' both => ?_
    obtain ⟨f, f', rfl, rfl, hf⟩ := both
    exact mirrors_pure ⟨some f, some f', rfl, rfl, .some hf⟩

/-! ## Results -/

/-- The second run has gone as the first, but for the numbers of its steps and for a new step behind
the first `i` that has left no trace but outcomes of its own. -/
structure Unnoticed (p : Pipeline) (i : Nat) (new : Step) (result result' : RunResult) : Prop where
  status : result'.status = result.status
  last : result'.scope.last = result.scope.last
  bindings : ∀ name, ¬ Step.IsOutputName name →
    result'.scope.bindings.get? name = result.scope.bindings.get? name
  outcomes : OutcomesMoved i new result.outcomes result'.outcomes
  error : Option.Rel (AbortMoved i p.plan) result.error result'.error
  entry : Option.Rel LogEntry.Beside result.entry result'.entry

/-- Two runs that have no result for the same reason, or results that are alike. -/
inductive RanAlike (p : Pipeline) (i : Nat) (new : Step) :
    Except Fault RunResult → Except Fault RunResult → Prop where
  | failed (f : Fault) : RanAlike p i new (.error f) (.error f)
  | ok {result result' : RunResult} (unnoticed : Unnoticed p i new result result') :
      RanAlike p i new (.ok result) (.ok result')

theorem unnoticed_of_ended {e e' : Ended} (h : e.Beside i (p.inserted i new) p.plan e')
    {entry entry' : Option LogEntry} (beside : Option.Rel LogEntry.Beside entry entry') :
    Unnoticed p i new ⟨e.progress.outcomes, e.scope, entry, e.error⟩
      ⟨e'.progress.outcomes, e'.scope, entry', e'.error⟩ where
  status := by
    unfold RunResult.status RunResult.isComplete
    rw [isNone_eq_of_rel h.error]
  last := h.agree.last
  bindings := h.agree.bindings
  outcomes := ⟨h.progress.outcomes.kept, h.progress.outcomes.passedOver⟩
  error := h.error
  entry := beside

/-- A run after the insertion of a step that is not active mirrors the run before, unless it takes
too many steps. -/
theorem mirrors_run (extends_ : Extends i (p.inserted i new) p.plan (p.insertStep i new).plan)
    (c : ExecutorConfig) (logged : Bool) (r : InboundRecord) (w : Option Workflow) :
    Mirrors (Stopped c) (RanAlike p i new) (p.run c logged r w)
      ((p.insertStep i new).run c logged r w) := by
  unfold Pipeline.run
  refine (mirrors_openEntry logged r p i new w).andThen fun x x' opened => ?_
  cases opened with
  | failed f => exact mirrors_pure (.failed f)
  | ok beside isOpen =>
    have hstart : ({ entry := _ } : Progress).Beside (OutcomesMoved i (p.inserted i new))
        { entry := _ } := ⟨beside, isOpen, outcomesMoved_nil i _, rfl, rfl⟩
    refine (extends_.mirrors_steps hstart (Scope.agreeOn_refl _ _)).bind (fun e e' ended => ?_)
      fun e' exhausted events out course => ?_
    · refine (mirrors_close ended new).andThen fun y y' closed => ?_
      obtain ⟨entry, entry', rfl, rfl, both⟩ := closed
      exact mirrors_pure (.ok (unnoticed_of_ended ended both))
    · obtain ⟨before, after, closed, -, first, rest⟩ := course_bind_iff.mp course
      obtain ⟨entry, rfl⟩ := exists_of_close exhausted.isOpen first
      obtain ⟨-, rfl⟩ := course_pure_iff.mp rest
      exact ⟨_, rfl, exhausted.error⟩

/-- The destination step has no settings that mention a name. -/
theorem mentioned_destinationStep? {order : Int} {s : Step}
    (h : p.destinationStep? order = some s) : s.mentioned = [] := by
  obtain ⟨⟨kind, id⟩, -, rfl⟩ := Option.map_eq_some_iff.mp h
  cases kind <;> rfl

/-- A valid pipeline that mentions no output by the number of its step goes through its plan as
before when a step that is not active has been inserted. -/
theorem extends_insertStep {place : Place} (valid : pipelineIssues place p = .ok [])
    (numbered : (StepSequence.mk p.steps).isContiguous = true) (hi : i ≤ p.steps.length)
    (inactive : new.isActive = false)
    (unmentioned : ∀ s ∈ p.steps, ∀ name ∈ s.mentioned, ¬ Step.IsOutputName name) :
    Extends i (p.inserted i new) p.plan (p.insertStep i new).plan where
  nonempty := (Pipeline.soundPlan_of_issues valid).nonempty
  first := by
    have sound := Pipeline.soundPlan_of_issues valid
    obtain ⟨s, rest, hplan⟩ := List.exists_cons_of_ne_nil sound.nonempty
    have hfirst : p.plan[0]? = some s := by rw [hplan]; rfl
    rw [hplan]
    exact sound.orders 0 s hfirst
  parts := Pipeline.plan_insertStep valid numbered hi new
  order := rfl
  inactive := inactive
  numbers := by
    intro s hs
    obtain ⟨k, hk⟩ := List.mem_iff_getElem?.mp hs
    rw [(Pipeline.soundPlan_of_issues valid).orders k s hk]
    omega
  mentions := by
    intro s hs
    obtain ⟨k, hk⟩ := List.mem_iff_getElem?.mp hs
    rcases Pipeline.getElem?_plan hk with hown | ⟨-, hfinal⟩
    · rw [Pipeline.sortedSteps_of_isContiguous numbered] at hown
      exact unmentioned s (List.mem_of_getElem? hown)
    · rw [mentioned_destinationStep? hfinal]
      exact fun _ h => absurd h List.not_mem_nil

/-- Inserting a step that is not active goes unnoticed: unless the settings of a valid pipeline
mention outputs by the numbers of their steps, or a run after the insertion takes too many steps,
the run makes the same calls in the same order and gets the same answers as the run before, and ends
with the same status, latest output and variables. Its outcomes are those of the run before under
the new numbers, in the same words but for the numbers that they quote, and between them those of
the new step. -/
theorem insertStep_unnoticed {σ τ : Type} {place : Place} {p : Pipeline} {i : Nat} {new : Step}
    (valid : pipelineIssues place p = .ok [])
    (numbered : (StepSequence.mk p.steps).isContiguous = true) (hi : i ≤ p.steps.length)
    (inactive : new.isActive = false)
    (unmentioned : ∀ s ∈ p.steps, ∀ name ∈ s.mentioned, ¬ Step.IsOutputName name)
    (c : ExecutorConfig) (logged : Bool) (r : InboundRecord) (w : Option Workflow)
    (a : Adapter τ σ) (world : World σ)
    (inTime : ¬ Stopped c (world.carryOut a ((p.insertStep i new).run c logged r w)).1) :
    RanAlike p i new (world.carryOut a (p.run c logged r w)).1
        (world.carryOut a ((p.insertStep i new).run c logged r w)).1 ∧
      calls (events (World.reply a) ((p.insertStep i new).run c logged r w) world) =
        calls (events (World.reply a) (p.run c logged r w) world) ∧
      (world.carryOut a (p.run c logged r w)).2.Beside
        (world.carryOut a ((p.insertStep i new).run c logged r w)).2 := by
  have extends_ := extends_insertStep valid numbered hi inactive unmentioned
  rcases World.carryOut_of_mirrors (mirrors_run extends_ c logged r w) a (World.beside_refl world)
    with stopped | ⟨alike, beside, same⟩
  · exact absurd stopped inTime
  · exact ⟨alike, same, beside⟩

/-- Fetches page after page while the answer names a next one. -/
def paging : Pipeline where
  id := "paging"
  sourceKind := .senderApp
  applicationId := some 1
  destinationKind := some .rest
  restId := some 7
  steps :=
    [{ order := 1
       name := "fetch"
       kind := .restCall
       inputMapping := some [("level", .text "$trigger.level")]
       outputVariable := some "page"
       rest :=
         { destinationId := some 9
           bodyTemplate := some "\x7b\"level\": \"\x7b\x7binput.level\x7d\x7d\"\x7d" } },
      { order := 2
        name := "more"
        kind := .condition
        branch :=
          { expression := some [("field", .text "next"), ("operator", .text "exists")]
            onTrue := some 1 } }]

/-- A pause that is switched off. -/
def idle : Step where
  order := 1
  name := "idle"
  kind := .delay
  isActive := false
  delaySeconds := some .zero

/-- A source of two pages. -/
def twoPages : World Recording where
  now := ⟨0, none⟩
  destinations :=
    { prepared :=
        [("rest:9",
          [{ answer := .result { success := true, data := .object [("next", .int 2)] } },
           { answer := .result { success := true, data := .object [("done", .bool true)] } }])] }

/-- The run comes to the new step twice, on its way to the condition that leads back. -/
theorem paging_insertStep_unnoticed :
    let run := paging.run {} true reading none
    let run' := (paging.insertStep 1 idle).run {} true reading none
    (∃ result, (twoPages.carryOut Recording.adapter run').1 = .ok result ∧
        result.outcomes.map (·.order) = [1, 2, 3, 1, 2, 3, 4]) ∧
      RanAlike paging 1 idle (twoPages.carryOut Recording.adapter run).1
        (twoPages.carryOut Recording.adapter run').1 ∧
      calls (events (World.reply Recording.adapter) run' twoPages) =
        calls (events (World.reply Recording.adapter) run twoPages) ∧
      (twoPages.carryOut Recording.adapter run).2.Beside
        (twoPages.carryOut Recording.adapter run').2 := by
  intro run run'
  have numbered : (StepSequence.mk paging.steps).isContiguous = true := by decide
  have valid : pipelineIssues [] paging = .ok [] := by
    unfold pipelineIssues
    rw [Pipeline.sortedSteps_of_isContiguous numbered]
    decide +kernel
  have unmentioned : ∀ s ∈ paging.steps, ∀ name ∈ s.mentioned, ¬ Step.IsOutputName name := by
    have hheads : ∀ s ∈ paging.steps, ∀ name ∈ s.mentioned, name.toList.head? ≠ some 's' := by
      decide +kernel
    exact fun s hs name hname output => hheads s hs name hname output.head?
  obtain ⟨result, returned, orders, complete⟩ : ∃ result,
      (twoPages.carryOut Recording.adapter run').1 = .ok result ∧
        result.outcomes.map (·.order) = [1, 2, 3, 1, 2, 3, 4] ∧ result.error = none := by
    have sorted : (paging.insertStep 1 idle).sortedSteps = (paging.insertStep 1 idle).steps :=
      Pipeline.sortedSteps_of_isContiguous (StepSequence.isContiguous_commit _)
    show ∃ result, (twoPages.carryOut Recording.adapter
        ((paging.insertStep 1 idle).run {} true reading none)).1 = .ok result ∧
      result.outcomes.map (·.order) = [1, 2, 3, 1, 2, 3, 4] ∧ result.error = none
    unfold Pipeline.run Pipeline.plan
    rw [sorted]
    decide +kernel
  have inTime : ¬ Stopped {} (twoPages.carryOut Recording.adapter run').1 := by
    rintro ⟨stopped, heq, hstopped⟩
    rw [returned] at heq
    cases heq
    rw [complete] at hstopped
    cases hstopped
  exact ⟨⟨result, returned, orders⟩,
    insertStep_unnoticed valid numbered (by decide) rfl unmentioned {} true reading none
      Recording.adapter twoPages inTime⟩

end Run
end Conveyor
