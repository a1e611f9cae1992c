import Conveyor.Proofs.Pipeline.Insertion
import Conveyor.Proofs.Run.Agreement
import Conveyor.Proofs.Run.Mirror
import Conveyor.Proofs.Run.Trail

/-!
# Steps under other numbers

A step asks for the same things under another number. What it fails with can quote the number, and
so can what the log is told of an attempt; no request and no output does. So the attempts at a step
and at the same step under another number mirror each other (`mirrors_attempt`).
-/

namespace Conveyor

/-! ## Failures that quote a number -/

/-- The failures are the same, but for the number of the step where they quote it. -/
inductive Failure.Requoted (order order' : Int) : Failure → Failure → Prop where
  | same (f : Failure) : Requoted order order' f f
  | needsObject (stepKind valueKind : String) :
      Requoted order order' (.step (.needsObject order stepKind valueKind))
        (.step (.needsObject order' stepKind valueKind))
  | noDestination :
      Requoted order order' (.validation (.noDestination order))
        (.validation (.noDestination order'))

/-- Both are failures that the error policy of a step covers, or neither is. -/
theorem Failure.Requoted.step_or {order order' : Int} {f f' : Failure}
    (h : f.Requoted order order' f') : (∃ e e', f = .step e ∧ f' = .step e') ∨
      (∀ e, f ≠ .step e) ∧ ∀ e, f' ≠ .step e := by
  cases h with
  | same f =>
    cases f with
    | step e => exact .inl ⟨e, e, rfl, rfl⟩
    | _ => exact .inr ⟨fun _ h => (by cases h), fun _ h => (by cases h)⟩
  | needsObject stepKind valueKind => exact .inl ⟨_, _, rfl, rfl⟩
  | noDestination => exact .inr ⟨fun _ h => (by cases h), fun _ h => (by cases h)⟩

/-- The computations have the same result, or failures that differ in the number that they quote. -/
inductive Requoted {α : Type} (order order' : Int) :
    Except Failure α → Except Failure α → Prop where
  | ok (a : α) : Requoted order order' (.ok a) (.ok a)
  | error {f f' : Failure} (requoted : f.Requoted order order' f') :
      Requoted order order' (.error f) (.error f')

namespace Requoted

variable {α β : Type} {order order' : Int}

theorem refl (x : Except Failure α) : Requoted order order' x x := by
  cases x with
  | error f => exact .error (.same f)
  | ok a => exact .ok a

theorem bind {x x' : Except Failure α} {f f' : α → Except Failure β}
    (h : Requoted order order' x x') (rest : ∀ a, Requoted order order' (f a) (f' a)) :
    Requoted order order' (x >>= f) (x' >>= f') := by
  cases h with
  | ok a => exact rest a
  | error requoted => exact .error requoted

end Requoted

/-! ## What a step does -/

namespace Step

/-- The names that the settings of a step mention: in the references of its input mapping, in the
placeholders of its body template, and as its output variable. -/
def mentioned (s : Step) : List String :=
  (s.inputMapping.map Scope.namesIn).getD [] ++
    ((s.rest.bodyTemplate.bind Json.read?).map Template.namesIn).getD [] ++
    s.outputVariable.toList

@[simp] theorem renumbered_kind (number : Int → Int) (s : Step) :
    (s.renumbered number).kind = s.kind := rfl

theorem renumbered_expression (number : Int → Int) (s : Step) :
    (s.renumbered number).branch.expression = s.branch.expression := by
  unfold renumbered
  dsimp only
  split <;> rfl

variable {s : Step} {names : String → Prop} {scope scope' : Scope}

theorem inputFields_renumbered (number : Int → Int) (s : Step) (input : Value) :
    Requoted s.order (number s.order) (s.inputFields input)
      ((s.renumbered number).inputFields input) := by
  unfold inputFields
  cases input.fields? with
  | none => exact .error (.needsObject s.kind.name input.kindName)
  | some fs => exact .ok fs

theorem sendTo_renumbered (number : Int → Int) (s : Step) (request : Request) (sent : Value) :
    Requoted s.order (number s.order) (s.sendTo request sent)
      ((s.renumbered number).sendTo request sent) := by
  have hsame : (s.renumbered number).destination? = s.destination? := rfl
  unfold sendTo
  rw [hsame]
  cases s.destination? with
  | none => exact .error .noDestination
  | some ref => exact .ok _

theorem restBody_renumbered (number : Int → Int) (agree : scope.AgreeOn names scope')
    (mentions : ∀ name ∈ s.mentioned, names name) (input : Value) :
    Requoted s.order (number s.order) (s.restBody scope input)
      ((s.renumbered number).restBody scope' input) := by
  have htemplate : (s.renumbered number).rest.bodyTemplate = s.rest.bodyTemplate := rfl
  unfold restBody
  rw [htemplate]
  cases hgiven : s.rest.bodyTemplate.filter fun t => !t.isEmpty with
  | none =>
    dsimp only
    have hmappings : (s.renumbered number).fieldMappings = s.fieldMappings := rfl
    rw [hmappings]
    split
    · exact .ok input
    · exact (inputFields_renumbered number s input).bind fun _ => .refl _
  | some t =>
    dsimp only
    cases hread : Json.read? t with
    | none => exact .error (.same _)
    | some template =>
      have hset : s.rest.bodyTemplate = some t := (Option.filter_eq_some_iff.mp hgiven).1
      have hnames : ∀ name ∈ Template.namesIn template, names name := by
        intro name hname
        refine mentions name (List.mem_append_left _ (List.mem_append_right _ ?_))
        rw [hset, Option.bind_some, hread]
        exact hname
      dsimp only
      rw [(agree.templateContext input hnames).render]
      exact .refl _

theorem restAction_renumbered (number : Int → Int) (agree : scope.AgreeOn names scope')
    (mentions : ∀ name ∈ s.mentioned, names name) (input : Value) :
    Requoted s.order (number s.order) (s.restAction scope input)
      ((s.renumbered number).restAction scope' input) :=
  (restBody_renumbered number agree mentions input).bind fun _ => sendTo_renumbered number s _ _

theorem queryAction_renumbered (number : Int → Int) (s : Step) (input : Value) :
    Requoted s.order (number s.order) (s.queryAction input)
      ((s.renumbered number).queryAction input) :=
  (inputFields_renumbered number s input).bind fun record =>
    (Requoted.refl (Mapping.resolve record s.fieldMappings)).bind fun fields =>
      (Requoted.refl (s.statement fields)).bind fun _ => sendTo_renumbered number s _ _

theorem transformAction_renumbered (number : Int → Int) (s : Step) (input : Value) :
    Requoted s.order (number s.order) (s.transformAction input)
      ((s.renumbered number).transformAction input) :=
  (inputFields_renumbered number s input).bind fun _ => .refl _

theorem conditionAction_renumbered (number : Int → Int) (s : Step) (input : Value) :
    (s.renumbered number).conditionAction input = s.conditionAction input := by
  unfold conditionAction
  rw [renumbered_expression]

/-- A step does the same under another number, in scopes that agree on the names it mentions. -/
theorem action_renumbered (number : Int → Int) (agree : scope.AgreeOn names scope')
    (mentions : ∀ name ∈ s.mentioned, names name) :
    Requoted s.order (number s.order) (s.action scope) ((s.renumbered number).action scope') := by
  have hmapping : (s.renumbered number).inputMapping = s.inputMapping := rfl
  have hinput : scope'.renderInput s.inputMapping = scope.renderInput s.inputMapping := by
    refine agree.renderInput fun settings hsettings name hname => mentions name ?_
    refine List.mem_append_left _ (List.mem_append_left _ ?_)
    rw [hsettings]
    exact hname
  unfold action
  rw [hmapping, hinput]
  refine (Requoted.refl _).bind fun input => ?_
  rw [renumbered_kind]
  cases s.kind with
  | restCall => exact restAction_renumbered number agree mentions input
  | dbQuery => exact queryAction_renumbered number s input
  | sapQuery => exact queryAction_renumbered number s input
  | transform => exact transformAction_renumbered number s input
  | condition =>
    dsimp only
    rw [conditionAction_renumbered]
    exact .refl _
  | delay => exact .refl _

end Step
/-! ## Attempts -/

/-- The entries are the same but for the destination that they name and for their message. -/
def LogEntry.Beside (e e' : LogEntry) : Prop :=
  ∃ destination message, e' = { e with destination, message }

namespace Run

open Activity

variable {O : List StepOutcome → List StepOutcome → Prop} {p p' : Progress} {c : ExecutorConfig}
  {names : String → Prop} {scope scope' : Scope} {s : Step}

/-- The bookkeeping of two runs with outcomes that are related and entries that are the same as far
as a run depends on them. -/
structure Progress.Beside (O : List StepOutcome → List StepOutcome → Prop) (p p' : Progress) :
    Prop where
  entry : Option.Rel LogEntry.Beside p.entry p'.entry
  isOpen : ∀ e, p.entry = some e → e.isTerminal = false
  outcomes : O p.outcomes p'.outcomes
  sent : p'.dataSent = p.dataSent
  received : p'.dataReceived = p.dataReceived

/-- What has come of two steps taken once. -/
structure Taken (O : List StepOutcome → List StepOutcome → Prop) (order order' : Int)
    (x x' : Progress × Except Failure Output) : Prop where
  progress : x.1.Beside O x'.1
  result : Requoted order order' x.2 x'.2

theorem taken_settle {order order' : Int} (h : p.Beside O p') (ref : DestinationRef) (sent : Value)
    (answer : Answer) :
    Taken O order order' (settle ref sent p answer) (settle ref sent p' answer) := by
  cases answer with
  | fault f => exact ⟨h, .refl _⟩
  | result r =>
    unfold settle
    dsimp only
    split
    · exact ⟨⟨h.entry, h.isOpen, h.outcomes, rfl, rfl⟩, .refl _⟩
    · exact ⟨⟨h.entry, h.isOpen, h.outcomes, rfl, rfl⟩, .refl _⟩

/-- What a step asks for does not depend on its number. -/
theorem mirrors_perform {order order' : Int} (h : p.Beside O p') (number : Int → Int) (s : Step)
    (action : Action) :
    Mirrors (fun _ => False) (Taken O order order') (perform s p action)
      (perform (s.renumbered number) p' action) := by
  cases action with
  | finish output holds =>
    exact mirrors_request_bind (.turn s.timeout) fun _ => mirrors_pure ⟨h, .refl _⟩
  | send ref request sent =>
    refine mirrors_request_bind (.call s.timeout ref request) fun reply => ?_
    cases reply with
    | none => exact mirrors_pure ⟨h, .refl _⟩
    | some answer => exact mirrors_pure (taken_settle h ref sent answer)
  | pause seconds output =>
    exact mirrors_request_bind (.wait seconds) fun _ => mirrors_pure ⟨h, .refl _⟩

theorem mirrors_invokeInTime (number : Int → Int) (h : p.Beside O p')
    (agree : scope.AgreeOn names scope') (mentions : ∀ name ∈ s.mentioned, names name) :
    Mirrors (fun _ => False) (Taken O s.order (number s.order)) (invokeInTime s scope p)
      (invokeInTime (s.renumbered number) scope' p') := by
  have haction := Step.action_renumbered number agree mentions
  unfold invokeInTime
  generalize s.action scope = action at haction ⊢
  generalize (s.renumbered number).action scope' = action' at haction ⊢
  cases haction with
  | ok action => exact mirrors_perform h number s action
  | error requoted =>
    rw [Step.renumbered_kind]
    dsimp only
    split
    · exact mirrors_request_bind (.turn s.timeout) fun _ => mirrors_pure ⟨h, .error requoted⟩
    · exact mirrors_pure ⟨h, .error requoted⟩

theorem mirrors_invoke (number : Int → Int) (h : p.Beside O p') (agree : scope.AgreeOn names scope')
    (mentions : ∀ name ∈ s.mentioned, names name) :
    Mirrors (fun _ => False) (Taken O s.order (number s.order)) (invoke s scope p)
      (invoke (s.renumbered number) scope' p') := by
  have htimeout : (s.renumbered number).timeout = s.timeout := rfl
  unfold invoke
  rw [Step.renumbered_kind, htimeout]
  split
  · exact mirrors_request_bind (.turn s.timeout) fun _ => mirrors_pure ⟨h, .refl _⟩
  · exact mirrors_invokeInTime number h agree mentions

/-- Attempts that failed are noted alike, whatever the log is told of them. -/
theorem mirrors_noteRetry (h : p.Beside O p') (message message' : String) :
    Mirrors (fun _ => False) (fun x x' => ∃ q q', x = .ok q ∧ x' = .ok q' ∧ q.Beside O q')
      (noteRetry p message) (noteRetry p' message') := by
  obtain ⟨entry, isOpen, outcomes, sent, received⟩ := h
  unfold noteRetry
  generalize hentry : p.entry = e at entry isOpen ⊢
  generalize hentry' : p'.entry = e' at entry ⊢
  cases entry with
  | none =>
    refine mirrors_pure ⟨p, p', rfl, rfl, ⟨?_, ?_, outcomes, sent, received⟩⟩
    · rw [hentry, hentry']
      exact .none
    · rw [hentry]
      exact isOpen
  | @some e e' beside =>
    have hopen := isOpen e rfl
    obtain ⟨destination, text, rfl⟩ := beside
    have hopen' : ({ e with destination, message := text } : LogEntry).isTerminal = false := hopen
    dsimp only
    unfold Journal.retry
    rw [hopen, hopen']
    refine mirrors_request_bind .now fun updated => ?_
    refine .update _ _ (mirrors_pure ⟨_, _, rfl, rfl, ?_⟩)
    refine ⟨.some ⟨destination, some message', rfl⟩, ?_, outcomes, sent, received⟩
    rintro _ ⟨⟩
    rfl

/-- How two steps ended. -/
structure Attempted.Beside (O : List StepOutcome → List StepOutcome → Prop) (order order' : Int)
    (a a' : Attempted) : Prop where
  progress : a.progress.Beside O a'.progress
  attempts : a'.attempts = a.attempts
  result : Requoted order order' a.result a'.result

theorem mirrors_attemptFrom (number : Int → Int) (agree : scope.AgreeOn names scope')
    (mentions : ∀ name ∈ s.mentioned, names name) (h : p.Beside O p') (attempt retries : Nat) :
    Mirrors (fun _ => False) (Attempted.Beside O s.order (number s.order))
      (attemptFrom c s scope attempt p retries)
      (attemptFrom c (s.renumbered number) scope' attempt p' retries) := by
  induction retries generalizing attempt p p' with
  | zero =>
    unfold attemptFrom
    refine (mirrors_invoke number h agree mentions).andThen fun x x' taken => ?_
    exact mirrors_pure ⟨taken.progress, rfl, taken.result⟩
  | succ retries ih =>
    unfold attemptFrom
    refine (mirrors_invoke number h agree mentions).andThen fun x x' taken => ?_
    obtain ⟨q, result⟩ := x
    obtain ⟨q', result'⟩ := x'
    obtain ⟨progress, requoted⟩ := taken
    dsimp only at progress requoted ⊢
    cases requoted with
    | ok out => exact mirrors_pure ⟨progress, rfl, .ok out⟩
    | @error f f' requoted =>
      rcases requoted.step_or with ⟨e, e', rfl, rfl⟩ | ⟨hne, hne'⟩
      · -- tried again, if there is a delay
        refine (mirrors_noteRetry progress _ _).andThen fun noted noted' both => ?_
        obtain ⟨r, r', rfl, rfl, beside⟩ := both
        dsimp only
        cases c.backoff attempt with
        | error f => exact mirrors_pure ⟨beside, rfl, .refl _⟩
        | ok delay =>
          exact mirrors_request_bind .draw fun chance =>
            mirrors_request_bind (.wait (delay chance)) fun _ => ih beside (attempt + 1)
      · split
        · exact absurd (Except.error.inj ‹_›) (hne _)
        · split
          · exact absurd (Except.error.inj ‹_›) (hne' _)
          · exact mirrors_pure ⟨progress, rfl, .error requoted⟩

/-- The attempts at a step and at the same step under another number, in scopes that agree on what
it mentions, mirror each other. -/
theorem mirrors_attempt (number : Int → Int) (agree : scope.AgreeOn names scope')
    (mentions : ∀ name ∈ s.mentioned, names name) (h : p.Beside O p') :
    Mirrors (fun _ => False) (Attempted.Beside O s.order (number s.order))
      (attempt c s scope p) (attempt c (s.renumbered number) scope' p') :=
  mirrors_attemptFrom number agree mentions h 1 (retries s)

end Run
end Conveyor
