import Conveyor.Proofs.Run.Journal
import Conveyor.Proofs.Run.Itinerary

/-!
# What the log shows of the calls of a run

Every call of a run goes with something that the log can show of it: a REST call with its body, a
statement with the columns that it was made of (`Sending`). A run notes the calls that are answered with
a result, so that in the end its entry describes the last of them, unless the body of that call is null:
then what was sent is still that of the record.
-/

namespace Conveyor.Run

open Activity

/-- What a step can send in a scope, and what the log shows of it. -/
inductive Sending (s : Step) (scope : Scope) : DestinationRef → Request → Value → Prop where
  | rest {ref : DestinationRef} {input body : Value} (kind : s.kind = .restCall)
      (destination : s.destination? = some ref)
      (rendered : scope.renderInput s.inputMapping = .ok input)
      (filled : s.restBody scope input = .ok body) :
      Sending s scope ref (.rest { method := s.rest.method.map (·.name), path := s.rest.path, body }) body
  | statement {ref : DestinationRef} {input : Value} {record : Fields}
      {fields : List Mapping.ResolvedField} {st : Statement}
      (kind : s.kind = .dbQuery ∨ s.kind = .sapQuery) (destination : s.destination? = some ref)
      (rendered : scope.renderInput s.inputMapping = .ok input)
      (entered : s.inputFields input = .ok record)
      (resolved : Mapping.resolve record s.fieldMappings = .ok fields)
      (written : s.statement fields = .ok st) :
      Sending s scope ref (.statement st) (.object (Mapping.payload fields))

variable {s : Step} {scope : Scope} {ref : DestinationRef} {request : Request} {sent : Value}

theorem sendTo_eq_ok_iff {action : Action} :
    s.sendTo request sent = .ok action ↔
      ∃ ref, s.destination? = some ref ∧ action = .send ref request sent := by
  unfold Step.sendTo
  cases s.destination? with
  | none => simp
  | some ref => simp [eq_comm]

theorem sending_of_queryAction {input : Value} (kind : s.kind = .dbQuery ∨ s.kind = .sapQuery)
    (rendered : scope.renderInput s.inputMapping = .ok input)
    (h : s.queryAction input = .ok (.send ref request sent)) : Sending s scope ref request sent := by
  obtain ⟨record, entered, h⟩ := Outcome.bind_eq_ok_iff.mp h
  obtain ⟨fields, resolved, h⟩ := Outcome.bind_eq_ok_iff.mp h
  obtain ⟨st, written, h⟩ := Outcome.bind_eq_ok_iff.mp h
  obtain ⟨ref', destination, hsend⟩ := sendTo_eq_ok_iff.mp h
  cases hsend
  exact .statement kind destination rendered entered resolved written

/-- Only REST calls and queries send something, and what they send is what their settings say. -/
theorem sending_of_action (h : s.action scope = .ok (.send ref request sent)) :
    Sending s scope ref request sent := by
  obtain ⟨input, rendered, h⟩ := Outcome.bind_eq_ok_iff.mp h
  cases hkind : s.kind with
  | restCall =>
    simp only [hkind] at h
    obtain ⟨body, filled, h⟩ := Outcome.bind_eq_ok_iff.mp h
    obtain ⟨ref', destination, hsend⟩ := sendTo_eq_ok_iff.mp h
    cases hsend
    exact .rest hkind destination rendered filled
  | dbQuery =>
    simp only [hkind] at h
    exact sending_of_queryAction (.inl hkind) rendered h
  | sapQuery =>
    simp only [hkind] at h
    exact sending_of_queryAction (.inr hkind) rendered h
  | transform =>
    simp only [hkind] at h
    obtain ⟨record, -, h⟩ := Outcome.bind_eq_ok_iff.mp h
    obtain ⟨output, -, h⟩ := Outcome.bind_eq_ok_iff.mp h
    cases h
  | condition =>
    simp only [hkind] at h
    obtain ⟨holds, -, h⟩ := Outcome.bind_eq_ok_iff.mp h
    cases h
  | delay =>
    simp only [hkind] at h
    cases h

/-! ## Exchanges -/

/-- A call with its answer, and what the log shows of what was sent. -/
structure Exchange where
  ref : DestinationRef
  request : Request
  sent : Value
  answer : Option Answer

namespace Exchange

/-- The exchange as the surroundings see it. -/
def call (x : Exchange) : DestinationRef × Request × Option Answer := (x.ref, x.request, x.answer)

/-- What was sent, and the data of the result, if the call had one. -/
def reported? (x : Exchange) : Option (Value × Value) :=
  match x.answer with
  | some (.result r) => some (x.sent, r.data)
  | _ => none

end Exchange

/-- What is reported of the last exchange that had a result. -/
def lastReported (xs : List Exchange) : Option (Value × Value) :=
  (xs.filterMap Exchange.reported?).getLast?

theorem lastReported_append (xs ys : List Exchange) :
    lastReported (xs ++ ys) = (lastReported ys).or (lastReported xs) := by
  rw [lastReported, List.filterMap_append, List.getLast?_append]
  rfl

/-- What the bookkeeping has noted for the log: what was sent, and what came back. -/
def Progress.noted (p : Progress) : Value × Value := (p.dataSent, p.dataReceived)

/-- The calls of a step in a scope are those of these exchanges. -/
structure Makes (s : Step) (scope : Scope) (events : List Event) (xs : List Exchange) : Prop where
  calls : calls events = xs.map Exchange.call
  sendings : ∀ x ∈ xs, Sending s scope x.ref x.request x.sent

/-- Of these exchanges the last that had a result is noted. What the entry shows as sent stays as it
is. -/
structure Notes (p : Progress) (xs : List Exchange) (q : Progress) : Prop where
  noted : q.noted = (lastReported xs).getD p.noted
  shown : q.entry.map (·.dataSent) = p.entry.map (·.dataSent)

variable {c : ExecutorConfig} {p q r : Progress} {events es fs : List Event} {a : Attempted}
  {xs ys : List Exchange}

theorem Makes.silent (h : Activity.calls events = []) : Makes s scope events [] :=
  ⟨h, List.forall_mem_nil _⟩

theorem Makes.append (h : Makes s scope es xs) (h' : Makes s scope fs ys) :
    Makes s scope (es ++ fs) (xs ++ ys) where
  calls := by rw [calls_append, h.calls, h'.calls, List.map_append]
  sendings := List.forall_mem_append.mpr ⟨h.sendings, h'.sendings⟩

theorem Notes.refl (p : Progress) : Notes p [] p := ⟨rfl, rfl⟩

theorem Notes.trans (h : Notes p xs q) (h' : Notes q ys r) : Notes p (xs ++ ys) r where
  noted := by
    rw [h'.noted, h.noted, lastReported_append]
    cases lastReported ys <;> rfl
  shown := h'.shown.trans h.shown

/-! ## The exchanges of a step -/

/-- An attempt makes one exchange, or none. -/
theorem exchanges_invoke {out : Progress × Except Failure Output}
    (h : Course (invoke s scope p) events out) :
    ∃ xs, Makes s scope events xs ∧ Notes p xs out.1 := by
  have hentry : out.1.entry = p.entry := (quiet_invoke h).entry
  rcases invoke_cases h with ⟨ref, request, sent, answer, haction, hcalls, rfl⟩ | ⟨hcalls, hout, -⟩
  · refine ⟨[⟨ref, request, sent, answer⟩], ⟨hcalls, ?_⟩, ?_, congrArg _ hentry⟩
    · exact List.forall_mem_singleton.mpr (sending_of_action haction)
    · -- only a result is noted
      match answer with
      | none | some (.fault _) => rfl
      | some (.result r) => cases hr : r.success <;> simp [answered, settle, hr] <;> rfl
  · exact ⟨[], .silent hcalls, hout ▸ .refl p⟩

/-- A retry shows of the entry what it showed before. -/
theorem shown_retry {e e' : LogEntry} {message : String}
    (h : Course (Journal.retry e message) events (.ok e')) : e'.dataSent = e.dataSent := by
  unfold Journal.retry at h
  split at h
  · cases (course_pure_iff.mp h).2
  · obtain ⟨now, _, rfl, noted⟩ := course_request_bind_iff.mp h
    obtain ⟨_, _, rfl, rest⟩ := course_request_bind_iff.mp noted
    cases (course_pure_iff.mp rest).2
    rfl

theorem notes_noteRetry {message : String} (h : Course (noteRetry p message) events (.ok q)) :
    Notes p [] q := by
  unfold noteRetry at h
  cases hp : p.entry with
  | none =>
    rw [hp] at h
    cases (course_pure_iff.mp h).2
    exact .refl p
  | some e =>
    rw [hp] at h
    obtain ⟨before, after, result, rfl, first, rest⟩ := course_bind_iff.mp h
    cases result with
    | error f => cases (course_pure_iff.mp rest).2
    | ok e' =>
      cases (course_pure_iff.mp rest).2
      exact ⟨rfl, by simp [hp, shown_retry first]⟩

/-- Each attempt at a step adds its exchange to those before it. -/
theorem exchanges_attempts {number repeats : Nat}
    (h : Course (attemptFrom c s scope number p repeats) events a) :
    ∃ xs, Makes s scope events xs ∧ Notes p xs a.progress := by
  induction repeats generalizing number p events with
  | zero =>
    cases attempting_of_course h with
    | settled once => exact exchanges_invoke once
  | succ left ih =>
    cases attempting_of_course h with
    | settled once => exact exchanges_invoke once
    | unnoted once refused =>
      obtain ⟨xs, made, notes⟩ := exchanges_invoke once
      have hquiet := calls_eq_nil (within_noteRetry _ _) refused
      exact ⟨xs ++ [], made.append (.silent hquiet), notes.trans (.refl _)⟩
    | unspaced once noted =>
      obtain ⟨xs, made, notes⟩ := exchanges_invoke once
      have hquiet := calls_eq_nil (within_noteRetry _ _) noted
      exact ⟨xs ++ [], made.append (.silent hquiet), notes.trans (notes_noteRetry noted)⟩
    | repeated once noted _ later =>
      obtain ⟨xs, made, notes⟩ := exchanges_invoke once
      obtain ⟨ys, madeLater, notesLater⟩ := ih later
      have hquiet := calls_eq_nil (within_noteRetry _ _) noted
      refine ⟨xs ++ ([] ++ ys), made.append (.append (.silent hquiet) ?_),
        notes.trans ((notes_noteRetry noted).trans notesLater)⟩
      exact ⟨madeLater.calls, madeLater.sendings⟩

/-! ## The exchanges of a run -/

/-- What the attempts of a visit noted is as it was after the visit. -/
theorem Visit.exchanges {v : Visit} (h : v.Happens c) :
    ∃ xs, Makes v.step v.scope v.events xs ∧ Notes v.before xs v.next.progress := by
  obtain ⟨outcome, ends⟩ := Visit.ends h
  unfold Visit.Happens at h
  generalize v.next = next at ends
  cases ends with
  | passedOver _ _ quiet =>
    rw [quiet]
    exact ⟨[], .silent rfl, rfl, rfl⟩
  | succeeded tried _ | skipped tried _ _ | failed tried _ _ =>
    rw [tried] at h
    obtain ⟨xs, made, notes⟩ := exchanges_attempts h.2
    exact ⟨xs, made, notes.noted, notes.shown⟩

/-- Visit by visit a trail makes exchanges, and the last of all that had a result is noted. -/
theorem Trail.exchanges {plan : List Step} {fuel : Nat} {order : Int} {visits : List Visit}
    {ended : Ended} (trail : Trail c plan fuel scope p order visits ended) :
    ∃ xss, List.Forall₂ (fun v xs => Makes v.step v.scope v.events xs) visits xss ∧
      Notes p xss.flatten ended.progress := by
  induction trail with
  | leave | exhaust => exact ⟨[], .nil, .refl _⟩
  | goOn _ happens next _ ih =>
    obtain ⟨xs, made, notes⟩ := Visit.exchanges happens
    obtain ⟨xss, madeLater, notesLater⟩ := ih
    rw [next] at notes
    exact ⟨xs :: xss, .cons made madeLater, notes.trans notesLater⟩
  | stop _ happens next =>
    obtain ⟨xs, made, notes⟩ := Visit.exchanges happens
    rw [next] at notes
    exact ⟨[xs], .cons made .nil, notes.trans (.refl _)⟩

theorem calls_of_makes {visits : List Visit} {xss : List (List Exchange)}
    (h : List.Forall₂ (fun v xs => Makes v.step v.scope v.events xs) visits xss) :
    (visits.flatMap fun v => calls v.events) = xss.flatten.map Exchange.call := by
  induction h with
  | nil => rfl
  | cons made _ ih => rw [List.flatMap_cons, made.calls, ih, List.flatten_cons, List.map_append]

/-! ## The entry -/

variable {pipeline : Pipeline} {record : InboundRecord} {w : Option Workflow} {result : RunResult}

/-- Exchanges that visits make are sendings of their steps. -/
theorem exists_sending {visits : List Visit} {xss : List (List Exchange)}
    (h : List.Forall₂ (fun v xs => Makes v.step v.scope v.events xs) visits xss) {x : Exchange}
    (hx : x ∈ xss.flatten) : ∃ s scope, Sending s scope x.ref x.request x.sent := by
  induction h with
  | nil => cases hx
  | cons made _ ih =>
    rcases List.mem_append.mp hx with hx | hx
    · exact ⟨_, _, made.sendings x hx⟩
    · exact ih hx

/-- A closed entry shows what came back last, and what was sent last unless that is null. -/
theorem shown_close {ended : Ended} {e : LogEntry} {entry : Option LogEntry}
    (h : Course (close record pipeline w ended) events (.ok entry))
    (he : ended.progress.entry = some e) :
    ∃ last, entry = some last ∧ last.dataReceived = ended.progress.dataReceived ∧
      last.dataSent = if ended.progress.dataSent.isNull then e.dataSent else ended.progress.dataSent := by
  unfold close at h
  rw [he] at h
  obtain ⟨before, after, closed, rfl, first, rest⟩ := course_bind_iff.mp h
  obtain ⟨rfl, hentry⟩ := course_pure_iff.mp rest
  cases closed with
  | error f => cases hentry
  | ok last =>
    cases hentry
    refine ⟨last, rfl, ?_⟩
    unfold Journal.finish at first
    split at first
    · cases (course_pure_iff.mp first).2
    · obtain ⟨updated, _, rfl, finished⟩ := course_request_bind_iff.mp first
      simp only at finished
      split at finished
      · obtain ⟨_, _, rfl, done⟩ := course_request_bind_iff.mp finished
        cases (course_pure_iff.mp done).2
        exact ⟨rfl, rfl⟩
      · obtain ⟨_, _, rfl, done⟩ := course_request_bind_iff.mp finished
        cases (course_pure_iff.mp done).2
        exact ⟨rfl, rfl⟩

/-- The entry of a run shows the record as sent until it is closed. -/
theorem shown_openEntry {entry : Option LogEntry}
    (h : Course (openEntry true record pipeline w) events (.ok entry)) :
    entry.map (·.dataSent) = some (.object record.payload) := by
  obtain ⟨started, hstarted, opening⟩ := opening_openEntry h
  cases opening with
  | refused => cases hstarted
  | opened =>
    cases hstarted
    rfl

/-- The entry describes what is reported of a call: what was sent, and the data of its result. Where
nothing is reported, that is the payload of the record, and nothing. -/
def Describes (payload : Fields) (entry : LogEntry) : Option (Value × Value) → Prop
  | some (sent, data) => entry.dataSent = sent ∧ entry.dataReceived = data
  | none => entry.dataSent = .object payload ∧ entry.dataReceived = .null

/-- The closed entry of a run shows what came back last, and what was sent last unless that is null. -/
theorem Parts.exchanges (parts : Parts c true pipeline record w events result) :
    ∃ xss entry, List.Forall₂ (fun v xs => Makes v.step v.scope v.events xs) parts.visits xss ∧
      result.entry = some entry ∧
      entry.dataReceived = ((lastReported xss.flatten).map (·.2)).getD .null ∧
      entry.dataSent = (((lastReported xss.flatten).map (·.1)).filter fun sent => !sent.isNull).getD
        (.object record.payload) := by
  obtain ⟨xss, made, noted, shown⟩ := parts.trail.exchanges
  obtain ⟨e, he, hsent⟩ := Option.map_eq_some_iff.mp (shown.trans (shown_openEntry parts.opens))
  obtain ⟨last, hlast, hreceived, hclosed⟩ := shown_close parts.closes he
  refine ⟨xss, last, made, hlast, ?_, ?_⟩
  · rw [hreceived, show parts.ended.progress.dataReceived = _ from congrArg Prod.snd noted]
    cases lastReported xss.flatten <;> rfl
  · rw [hclosed, hsent, show parts.ended.progress.dataSent = _ from congrArg Prod.fst noted]
    cases lastReported xss.flatten with
    | none => rfl
    | some reported =>
      obtain ⟨sent, data⟩ := reported
      cases sent <;> rfl

/-- The log of a run ends with its entry. -/
theorem Parts.lastOp_entry {entry : LogEntry} (parts : Parts c true pipeline record w events result)
    (hentry : result.entry = some entry) :
    ∃ earlier, logOps events = earlier ++ [lastOp result.isComplete w entry] := by
  obtain ⟨first, versions, last, story, -⟩ := parts.exists_story
  obtain rfl := Option.some.inj (story.entry.symm.trans hentry)
  exact ⟨.append first :: versions.map .update, story.ops_eq⟩

/-- In a run that is logged every call goes with what the step that makes it, in its scope, sends. The
entry that the run leaves behind describes the last of them that had a result, or the record and nothing
if none had one; but for a null that was sent last, in place of which the entry shows the record. -/
theorem entry_describes_iff {σ : Type} (surroundings : Surroundings σ) (st : σ) (c : ExecutorConfig)
    (pipeline : Pipeline) (record : InboundRecord) (w : Option Workflow) {result : RunResult}
    (returned : (carryOut surroundings (pipeline.run c true record w) st).1 = .ok result) :
    ∃ (parts : Parts c true pipeline record w
        (Activity.events surroundings (pipeline.run c true record w) st) result)
      (xss : List (List Exchange)) (entry : LogEntry),
      List.Forall₂ (fun v xs => Makes v.step v.scope v.events xs) parts.visits xss ∧
      calls (Activity.events surroundings (pipeline.run c true record w) st) =
        xss.flatten.map Exchange.call ∧
      result.entry = some entry ∧
      (∃ earlier, logOps (Activity.events surroundings (pipeline.run c true record w) st) =
        earlier ++ [lastOp result.isComplete w entry]) ∧
      (Describes record.payload entry (lastReported xss.flatten) ↔
        ∀ data, lastReported xss.flatten ≠ some (.null, data)) ∧
      ∀ data, lastReported xss.flatten = some (.null, data) →
        entry.dataSent = .object record.payload ∧ entry.dataReceived = data := by
  have course := course_events surroundings (pipeline.run c true record w) st
  rw [returned] at course
  obtain ⟨parts⟩ := exists_parts course
  obtain ⟨xss, entry, made, hentry, hreceived, hsent⟩ := parts.exchanges
  refine ⟨parts, xss, entry, made, parts.calls_eq.trans (calls_of_makes made), hentry,
    parts.lastOp_entry hentry, ?_, ?_⟩
  · cases hreported : lastReported xss.flatten with
    | none =>
      rw [hreported] at hreceived hsent
      exact ⟨fun _ _ => nofun, fun _ => ⟨hsent, hreceived⟩⟩
    | some reported =>
      obtain ⟨sent, data⟩ := reported
      rw [hreported] at hreceived hsent
      constructor
      · rintro ⟨hdescribed, -⟩ data' heq
        cases heq
        rw [hdescribed] at hsent
        cases hsent
      · intro hnull
        refine ⟨?_, hreceived⟩
        cases sent with
        | null => exact absurd rfl (hnull data)
        | _ => exact hsent
  · intro data hreported
    rw [hreported] at hreceived hsent
    exact ⟨hsent, hreceived⟩

/-- A REST step whose body is null. -/
def nullSender : Pipeline where
  id := "nulls"
  sourceKind := .senderApp
  applicationId := some 1
  steps :=
    [{ order := 1
       name := "send"
       kind := .restCall
       rest := { destinationId := some 7, bodyTemplate := some "null" } }]

/-- Destinations that store whatever they get. -/
def storing : Surroundings Unit := answering (.result { success := true, data := .text "stored" })

/-- Whether a call had a null for a body and a result with data. -/
def isNullStored : DestinationRef × Request × Option Answer → Bool
  | (_, .rest q, some (.result r)) => q.body.isNull && !r.data.isNull
  | _ => false

theorem nullSender_run :
    ∃ result, (carryOut storing (nullSender.run {} true reading none) ()).1 = .ok result ∧
      result.entry.map (·.dataSent.isNull) = some false ∧
      (calls (Activity.events storing (nullSender.run {} true reading none) ())).map isNullStored =
        [true] := by
  unfold Pipeline.run Pipeline.plan
  rw [Pipeline.sortedSteps_eq (p := nullSender) (by decide)]
  decide +kernel

/-- What is reported of the one call of that run. -/
theorem nullSender_reported {xs : List Exchange}
    (hcalls : calls (Activity.events storing (nullSender.run {} true reading none) ()) =
      xs.map Exchange.call)
    (hsending : ∀ x ∈ xs, ∃ s scope, Sending s scope x.ref x.request x.sent) :
    ∃ data, data.isNull = false ∧ lastReported xs = some (.null, data) := by
  obtain ⟨-, -, -, hstored⟩ := nullSender_run
  rw [hcalls, List.map_map] at hstored
  obtain ⟨⟨ref, request, sent, answer⟩, rfl, hone⟩ := List.map_eq_singleton_iff.mp hstored
  obtain ⟨s, scope, sending⟩ := hsending _ (List.mem_singleton_self _)
  replace sending : Sending s scope ref request sent := sending
  cases sending with
  | statement => cases hone
  | rest =>
    match answer with
    | none | some (.fault _) => cases hone
    | some (.result r) =>
      have hnull : sent.isNull = true ∧ r.data.isNull = false := by
        simpa [Exchange.call, isNullStored] using hone
      refine ⟨r.data, hnull.2, ?_⟩
      cases sent with
      | null => rfl
      | _ => cases hnull.1

theorem nullSender_described :
    ∃ result entry, (carryOut storing (nullSender.run {} true reading none) ()).1 = .ok result ∧
      result.entry = some entry ∧ entry.dataSent = .object reading.payload ∧
      entry.dataReceived.isNull = false := by
  obtain ⟨result, returned, -, -⟩ := nullSender_run
  obtain ⟨parts, xss, entry, made, hcalls, hentry, -, -, hnull⟩ :=
    entry_describes_iff storing () {} nullSender reading none returned
  obtain ⟨data, hdata, hreported⟩ := nullSender_reported hcalls fun x hx => exists_sending made hx
  obtain ⟨hsent, hreceived⟩ := hnull data hreported
  exact ⟨result, entry, returned, hentry, hsent, by rw [hreceived, hdata]⟩

/-- The last call of a run had a result and a null body, and the entry shows another body. -/
theorem nullSender_undescribed :
    ∃ (result : RunResult) (entry : LogEntry) (xs : List Exchange),
      (carryOut storing (nullSender.run {} true reading none) ()).1 = .ok result ∧
      result.entry = some entry ∧
      calls (Activity.events storing (nullSender.run {} true reading none) ()) =
        xs.map Exchange.call ∧
      (∀ x ∈ xs, ∃ s scope, Sending s scope x.ref x.request x.sent) ∧
      (∃ data, lastReported xs = some (.null, data)) ∧
      ¬ Describes reading.payload entry (lastReported xs) := by
  obtain ⟨result, returned, hshown, -⟩ := nullSender_run
  have course := course_events storing (nullSender.run {} true reading none) ()
  rw [returned] at course
  obtain ⟨parts⟩ := exists_parts course
  obtain ⟨xss, entry, made, hentry, -, -⟩ := parts.exchanges
  have hcalls := parts.calls_eq.trans (calls_of_makes made)
  have hsending : ∀ x ∈ xss.flatten, ∃ s scope, Sending s scope x.ref x.request x.sent :=
    fun x hx => exists_sending made hx
  obtain ⟨data, -, hreported⟩ := nullSender_reported hcalls hsending
  refine ⟨result, entry, xss.flatten, returned, hentry, hcalls, hsending, ⟨data, hreported⟩, ?_⟩
  rw [hreported]
  rintro ⟨hsent, -⟩
  rw [hentry, Option.map_some, hsent] at hshown
  cases hshown

end Conveyor.Run
