import Conveyor.Proofs.Run.Replies
import Conveyor.Proofs.Run.Repetition

/-!
# What the policy of a step comes to

A step that is to be repeated when it fails gets through to a destination that fails at first exactly
if its policy allows for the failures, and makes no more calls than that takes. Recording destinations
fail as their script says; other destinations may fail in any way. The attempts at a step are counted
for all of them (`attempts_follow_policy`).
-/

namespace Conveyor.Run

open Activity

variable {c : ExecutorConfig} {s : Step} {scope : Scope} {p : Progress} {events : List Event}
  {a : Attempted}

/-! ## Destinations that fail at first -/

/-- The first answers, so many of them, are failures, and all others successes. -/
def FailsFirst (f : Nat) (answers : List (Option Answer)) : Prop :=
  ∀ i answer, answers[i]? = some answer →
    ∃ r, answer = some (.result r) ∧ r.success = decide (f ≤ i)

theorem failsFirst_cons {f : Nat} {r : CallResult} {answers : List (Option Answer)}
    (head : r.success = decide (f = 0)) (rest : FailsFirst (f - 1) answers) :
    FailsFirst f (some (.result r) :: answers) := by
  intro i answer hi
  cases i with
  | zero =>
    cases hi
    exact ⟨r, rfl, by simpa using head⟩
  | succ i =>
    obtain ⟨r', hr', hsuccess⟩ := rest i answer (by simpa using hi)
    refine ⟨r', hr', ?_⟩
    rw [hsuccess, decide_eq_decide]
    omega

/-- An attempt fails as long as the destination does. -/
theorem Repetition.result_at {repeats f i : Nat} {tries : List Try} {t : Try} {ref : DestinationRef}
    {request : Request} {sent : Value} (h : Repetition c s scope 1 p repeats events a tries)
    (haction : s.action scope = .ok (.send ref request sent)) (htime : s.timeout.le .zero = false)
    (fails : FailsFirst f (answers events)) (hi : tries[i]? = some t) :
    (f ≤ i → ∃ out, t.result = .ok out) ∧ (i < f → ∃ e, t.result = .error (.step e)) := by
  have told := h.answers_told haction htime
  obtain ⟨answer, hanswer, hresult⟩ : ∃ answer, (answers events)[i]? = some answer ∧
      t.result = (answered s ref sent t.before answer).2 := by
    have hlt := (List.getElem?_eq_some_iff.mp hi).1
    have hlt' : i < (answers events).length := by rwa [← told.length_eq]
    refine ⟨(answers events)[i], List.getElem?_eq_getElem hlt', ?_⟩
    have hpair := told.get hlt hlt'
    simp only [List.get_eq_getElem] at hpair
    rwa [(List.getElem?_eq_some_iff.mp hi).2] at hpair
  obtain ⟨r, rfl, hsuccess⟩ := fails i answer hanswer
  obtain ⟨hok, herror⟩ := settle_result ref sent t.before r
  rw [hresult]
  constructor
  · intro hle
    exact hok (by simpa [hsuccess] using hle)
  · intro hlt
    exact herror (by simpa [hsuccess] using hlt)

/-- Against a destination that fails at first, a step succeeds exactly if its repetitions reach the
first success, and it makes no more calls than it takes. -/
theorem Repetition.succeeds_iff {repeats f : Nat} {tries : List Try} {ref : DestinationRef}
    {request : Request} {sent : Value} (h : Repetition c s scope 1 p repeats events a tries)
    (haction : s.action scope = .ok (.send ref request sent)) (htime : s.timeout.le .zero = false)
    (fails : FailsFirst f (answers events)) :
    ((∃ out, a.result = .ok out) ↔ f ≤ repeats) ∧
      (calls events).length = min f repeats + 1 := by
  have told := h.answers_told haction htime
  have hlength : (calls events).length = tries.length := by
    rw [told.length_eq, answers, List.length_map]
  obtain ⟨last, hlast, -, -, hresult⟩ := h.ends
  have hbound := h.bound
  have hpos := h.length_pos
  rw [List.getLast?_eq_getElem?] at hlast
  obtain ⟨hok, herror⟩ := h.result_at haction htime fails hlast
  -- all attempts before the last met with a failure
  have hfailed : tries.length ≤ f + 1 := by
    by_contra hmore
    obtain ⟨t, ht⟩ : ∃ t, tries[tries.length - 2]? = some t :=
      ⟨_, List.getElem?_eq_getElem (show tries.length - 2 < tries.length by omega)⟩
    have hnext : tries[tries.length - 2 + 1]? = some last := by
      rwa [show tries.length - 2 + 1 = tries.length - 1 by omega]
    obtain ⟨e, he, -⟩ := (h.leads _ t last ht hnext).noted
    obtain ⟨out, hout⟩ := (h.result_at haction htime fails ht).1 (by omega)
    rw [he] at hout
    cases hout
  rw [hlength]
  by_cases hreached : f ≤ tries.length - 1
  · obtain ⟨out, hout⟩ := hok hreached
    have hle : f ≤ repeats := by omega
    refine ⟨⟨fun _ => hle, fun _ => ⟨out, hresult ▸ hout⟩⟩, ?_⟩
    omega
  · obtain ⟨e, he⟩ := herror (by omega)
    have hspent := h.spent e (hresult ▸ he)
    refine ⟨⟨?_, fun hle => absurd hle (by omega)⟩, ?_⟩
    · rintro ⟨out, hout⟩
      rw [← hresult, he] at hout
      cases hout
    · omega

/-- How many calls to a destination are still to fail. -/
def failuresLeft (d : Recording) (ref : DestinationRef) : Nat :=
  ((d.failures.get? ref.text).getD 0).toNat

/-- Nothing is prepared for the calls to a destination. -/
def IsUnprepared (d : Recording) (ref : DestinationRef) : Prop :=
  (d.prepared.get? ref.text).getD [] = []

/-- An answer for which nothing is prepared is a failure as long as there are any left, and leaves one
failure less. -/
theorem fetch_unprepared (d : Recording) (ref : DestinationRef) (isRest : Bool) :
    ∃ r d', Recording.fetch (.unprepared ref isRest) d = (.result r, d') ∧
      r.success = decide (failuresLeft d ref = 0) ∧ d'.prepared = d.prepared ∧
      failuresLeft d' ref = failuresLeft d ref - 1 := by
  by_cases hleft : 0 < (d.failures.get? ref.text).getD 0
  · refine ⟨Recording.scriptedFailure ref.text isRest,
      { d with failures := d.failures.put ref.text ((d.failures.get? ref.text).getD 0 - 1) },
      by simp [Recording.fetch, hleft], ?_, rfl, ?_⟩
    · simp [Recording.scriptedFailure, failuresLeft]
      omega
    · simp [failuresLeft, Keyed.get?_put_same]
  · refine ⟨Recording.success ((d.responses.get? ref.text).getD .null) isRest, d,
      by simp [Recording.fetch, hleft], ?_, rfl, ?_⟩
    · simp [Recording.success, failuresLeft]
      omega
    · simp [failuresLeft]
      omega

/-- A call for which nothing is prepared is given up, or answered by a failure if there are any
left. -/
theorem callWithin_unprepared {w : World Recording} {ref : DestinationRef} (limit : Binary64)
    (request : Request) (unprepared : IsUnprepared w.destinations ref) :
    (w.callWithin Recording.adapter limit ref request).1 = none ∨
      ∃ r w', w.callWithin Recording.adapter limit ref request = (some (.result r), w') ∧
        r.success = decide (failuresLeft w.destinations ref = 0) ∧
        IsUnprepared w'.destinations ref ∧
        failuresLeft w'.destinations ref = failuresLeft w.destinations ref - 1 := by
  have hcall : World.call Recording.adapter ref request w =
      ((w.destinations.delay, .unprepared ref (Recording.Request.isRest request)),
        { w with destinations :=
          { w.destinations with calls := w.destinations.calls ++ [(ref, request)] } }) := by
    unfold IsUnprepared at unprepared
    simp [World.call, Recording.adapter, Recording.call, unprepared]
  unfold World.callWithin
  rw [hcall]
  dsimp only
  split
  · exact .inl rfl
  · right
    obtain ⟨r, d', hfetch, hsuccess, hprepared, hleft⟩ := fetch_unprepared
      { w.destinations with calls := w.destinations.calls ++ [(ref, request)] } ref
      (Recording.Request.isRest request)
    simp only [World.fetch, World.pass_destinations, Recording.adapter, hfetch]
    refine ⟨r, _, rfl, hsuccess, ?_, hleft⟩
    simpa [IsUnprepared, hprepared] using unprepared

/-- Recording destinations fail as often as their script says, whoever calls, as long as nothing is
prepared, all calls go to one of them, and none is given up. -/
theorem failsFirst_recording {α : Type} {t : Activity α} {w : World Recording}
    {ref : DestinationRef} (unprepared : IsUnprepared w.destinations ref)
    (only : ∀ call ∈ calls (Activity.events (World.reply Recording.adapter) t w), call.1 = ref)
    (inTime : none ∉ answers (Activity.events (World.reply Recording.adapter) t w)) :
    FailsFirst (failuresLeft w.destinations ref)
      (answers (Activity.events (World.reply Recording.adapter) t w)) := by
  induction t generalizing w with
  | done b =>
    intro i answer hi
    simp [answers, Activity.events, calls] at hi
  | ask q next ih =>
    cases q with
    | call limit ref' request =>
      obtain rfl : ref' = ref := only (ref', request, _) List.mem_cons_self
      have honly := fun call hcall => only call (List.mem_cons_of_mem _ hcall)
      have hanswer := fun h => inTime (List.mem_cons.mpr (.inl h))
      have hrest := fun h => inTime (List.mem_cons_of_mem _ h)
      have hreply := callWithin_unprepared limit request unprepared
      show FailsFirst _ ((w.callWithin Recording.adapter limit ref' request).1 :: answers _)
      rcases hreply with hgiven | ⟨r, w', hanswered, hsuccess, hunprepared, hleft⟩
      · exact absurd hgiven.symm hanswer
      · rw [show World.reply Recording.adapter (.call limit ref' request) w =
          (some (.result r), w') from hanswered] at honly hrest ⊢
        rw [hanswered]
        exact failsFirst_cons hsuccess (hleft ▸ ih _ hunprepared honly hrest)
    | wait seconds =>
      have hdestinations : (w.pass seconds).destinations = w.destinations :=
        World.pass_destinations seconds w
      rw [← hdestinations] at unprepared ⊢
      exact ih () unprepared only inTime
    | _ => exact ih _ unprepared only inTime

/-! ## The policy of a step -/

/-- A step that is repeated when it fails, and that has the time and the settings to make a call. -/
structure IsPersistent (s : Step) (scope : Scope) (ref : DestinationRef) : Prop where
  policy : s.onError = .retry
  bound : 0 ≤ s.maxRetries
  action : ∃ request sent, s.action scope = .ok (.send ref request sent)
  time : s.timeout.le .zero = false

/-- All calls at a persistent step go to its destination. -/
theorem IsPersistent.ref_of_mem {ref : DestinationRef} {tries : List Try}
    (h : IsPersistent s scope ref)
    (made : Repetition c s scope 1 p (retries s) events a tries) :
    ∀ call ∈ calls events, call.1 = ref := by
  intro call hcall
  obtain ⟨request, sent, haction⟩ := h.action
  rw [made.calls_eq] at hcall
  obtain ⟨t, ht, hcall⟩ := List.mem_flatMap.mp hcall
  rcases made.calls_mem ht with hnone | ⟨ref', request', sent', answer, haction', hone⟩
  · simp [hnone] at hcall
  · rw [haction] at haction'
    cases haction'
    rw [hone] at hcall
    rw [List.mem_singleton.mp hcall]

/-- A persistent step gets through to a destination that fails at first exactly if its policy allows
for the failures. -/
theorem IsPersistent.succeeds_iff {ref : DestinationRef} {f : Nat} {tries : List Try}
    (h : IsPersistent s scope ref)
    (made : Repetition c s scope 1 p (retries s) events a tries)
    (fails : FailsFirst f (answers events)) :
    ((∃ out, a.result = .ok out) ↔ (f : Int) ≤ s.maxRetries) ∧
      (calls events).length = min f s.maxRetries.toNat + 1 := by
  obtain ⟨request, sent, haction⟩ := h.action
  obtain ⟨hiff, hlength⟩ := made.succeeds_iff haction h.time fails
  have hretries : retries s = s.maxRetries.toNat := by simp [retries, h.policy]
  have hbound := h.bound
  rw [hretries] at hiff hlength
  exact ⟨hiff.trans (by omega), hlength⟩

/-- A step that is not to be repeated is attempted once. -/
theorem Repetition.attempts_eq_one {tries : List Try}
    (made : Repetition c s scope 1 p (retries s) events a tries) (hpolicy : s.onError ≠ .retry) :
    a.attempts = 1 := by
  have hattempts := made.attempts
  have hbound := made.bound
  have hpos := made.length_pos
  have hretries : retries s = 0 := by simp [retries, hpolicy]
  omega

/-- A step that is to be repeated fails for good after all attempts that its policy allows. -/
theorem Repetition.attempts_of_error {tries : List Try} {e : StepError}
    (made : Repetition c s scope 1 p (retries s) events a tries)
    (hresult : a.result = .error (.step e)) (hpolicy : s.onError = .retry) :
    (a.attempts : Int) = 1 + max 0 s.maxRetries := by
  have hattempts := made.attempts
  have hspent := made.spent e hresult
  have hretries : retries s = s.maxRetries.toNat := by simp [retries, hpolicy]
  omega

/-- Attempts at a step, in any surroundings, if the waits between them can be worked out, and the
entry is open if there is one, as it is in every run (`Parts.repeated`). They are those of a
repetition: all but the last failed in a way that the policy covers, each was followed by one note
and one wait, and the last gave the result. Each makes no call, or the one that the step makes in
its scope. There is one attempt only unless the step is to be repeated; then a failure that the
policy covers is final after all attempts that the policy allows. In particular a step gets through
to a destination that fails at first exactly if the policy allows for the failures, and makes no
more calls than that takes; recording destinations are of this kind. -/
theorem attempts_follow_policy {σ : Type} (surroundings : Surroundings σ) (st : σ)
    (c : ExecutorConfig) (s : Step) (scope : Scope) (p : Progress)
    (open_ : ∀ e, p.entry = some e → e.isTerminal = false)
    (spaced : ∀ i : Nat, 1 ≤ i → i ≤ retries s → ∃ delay, c.backoff i = .ok delay) :
    let a := (carryOut surroundings (attempt c s scope p) st).1
    let events := Activity.events surroundings (attempt c s scope p) st
    (∃ tries, Repetition c s scope 1 p (retries s) events a tries ∧
      calls events = (tries.flatMap fun t => calls t.events) ∧
      ∀ t ∈ tries, calls t.events = [] ∨ ∃ ref request sent answer,
        s.action scope = .ok (.send ref request sent) ∧
          calls t.events = [(ref, request, answer)]) ∧
    (s.onError ≠ .retry → a.attempts = 1) ∧
    (∀ e, a.result = .error (.step e) → attemptsOf a (.step e) = a.attempts ∧
      (s.onError = .retry → (a.attempts : Int) = 1 + max 0 s.maxRetries)) ∧
    (∀ ref, IsPersistent s scope ref → ∀ f : Nat, FailsFirst f (answers events) →
      ((∃ out, a.result = .ok out) ↔ (f : Int) ≤ s.maxRetries) ∧
        (calls events).length = min f s.maxRetries.toNat + 1) ∧
    ∀ ref, IsPersistent s scope ref → ∀ w : World Recording,
      let a := (w.carryOut Recording.adapter (attempt c s scope p)).1
      let events := Activity.events (World.reply Recording.adapter) (attempt c s scope p) w
      IsUnprepared w.destinations ref → none ∉ answers events →
        ((∃ out, a.result = .ok out) ↔ (failuresLeft w.destinations ref : Int) ≤ s.maxRetries) ∧
          (calls events).length = min (failuresLeft w.destinations ref) s.maxRetries.toNat + 1 := by
  intro a events
  have repetition : ∀ {events : List Event} {a : Attempted},
      Course (attempt c s scope p) events a →
        ∃ tries, Repetition c s scope 1 p (retries s) events a tries :=
    fun course => exists_repetition open_ (fun i hi hlt => spaced i hi (by omega)) course
  obtain ⟨tries, made⟩ := repetition (course_events surroundings (attempt c s scope p) st)
  refine ⟨⟨tries, made, made.calls_eq, fun t ht => made.calls_mem ht⟩, made.attempts_eq_one,
    fun e he => ⟨rfl, made.attempts_of_error he⟩, fun ref h f fails => h.succeeds_iff made fails,
    ?_⟩
  intro ref h w a events unprepared inTime
  obtain ⟨tries, made⟩ := repetition (course_events (World.reply _) (attempt c s scope p) w)
  exact h.succeeds_iff made (failsFirst_recording unprepared (h.ref_of_mem made) inTime)

/-- A step that is tried three times. -/
def threefold : Step where
  order := 1
  name := "send"
  kind := .restCall
  onError := .retry
  maxRetries := 2
  rest := { destinationId := some 7 }

/-- A destination that is down for so many calls. -/
def downFor (f : Int) : World Recording where
  now := ⟨0, none⟩
  destinations := { failures := [("rest:7", f)] }

/-- The bookkeeping of a run that has just opened its entry. -/
def opened : Progress where
  entry := some
    { id := "id-1", dataId := "reading", source := "sender_app:1", createdAt := ⟨0, none⟩,
      updatedAt := ⟨0, none⟩ }

/-- The attempts at the step, and what is noted while they last. -/
def threefoldRun : Activity Attempted :=
  attempt {} threefold (Scope.start []) opened

/-- What happens during the attempts, if the destination is down for so many calls. -/
def threefoldEvents (f : Int) : List Event :=
  Activity.events (World.reply Recording.adapter) threefoldRun (downFor f)

/-- Two failures are within the policy of three attempts, and three are not. -/
theorem threefold_follows_policy :
    (∀ e, opened.entry = some e → e.isTerminal = false) ∧
    (∀ i : Nat, 1 ≤ i → i ≤ retries threefold →
      ∃ delay, ({} : ExecutorConfig).backoff i = .ok delay) ∧
    IsPersistent threefold (Scope.start []) ⟨.rest, 7⟩ ∧
    (∃ out, ((downFor 2).carryOut Recording.adapter threefoldRun).1.result = .ok out) ∧
    (calls (threefoldEvents 2)).length = 3 ∧
    (¬∃ out, ((downFor 3).carryOut Recording.adapter threefoldRun).1.result = .ok out) ∧
    (calls (threefoldEvents 3)).length = 3 := by
  have open_ : ∀ e, opened.entry = some e → e.isTerminal = false := by
    intro e he
    cases he
    rfl
  have spaced : ∀ i : Nat, 1 ≤ i → i ≤ retries threefold →
      ∃ delay, ({} : ExecutorConfig).backoff i = .ok delay := by
    intro i hi hle
    have hcases : i = 1 ∨ i = 2 := by
      have hretries : retries threefold = 2 := rfl
      omega
    rcases hcases with rfl | rfl
    · exact ⟨_, rfl⟩
    · exact ⟨_, rfl⟩
  have persistent : IsPersistent threefold (Scope.start []) ⟨.rest, 7⟩ :=
    ⟨rfl, by decide, ⟨_, _, rfl⟩, by decide +kernel⟩
  have inTime : ∀ f, (answers (threefoldEvents f)).all Option.isSome = true →
      none ∉ answers (threefoldEvents f) := by
    intro f hall hnone
    exact absurd (List.all_eq_true.mp hall none hnone) (by simp)
  have recorded := (attempts_follow_policy (World.reply Recording.adapter)
    (downFor 2) {} threefold (Scope.start []) opened open_ spaced).2.2.2.2 _ persistent
  have two : failuresLeft (downFor 2).destinations ⟨.rest, 7⟩ = 2 := rfl
  have three : failuresLeft (downFor 3).destinations ⟨.rest, 7⟩ = 3 := rfl
  have within := recorded (downFor 2) rfl (inTime 2 (by decide +kernel))
  have beyond := recorded (downFor 3) rfl (inTime 3 (by decide +kernel))
  rw [two] at within
  rw [three] at beyond
  refine ⟨open_, spaced, persistent, ?_, within.2, ?_, beyond.2⟩ <;> rw [threefoldRun]
  · exact within.1.mpr (by decide)
  · intro succeeded
    exact absurd (beyond.1.mp succeeded) (by decide)

end Conveyor.Run
