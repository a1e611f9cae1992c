import Conveyor.Proofs.Run.Journal
import Conveyor.Proofs.Run.Mirror

/-!
# How a step is repeated

The attempts at a step one by one. Each is an invocation of the step in the same scope, so that all
make the same call, if they make one; each but the last has failed in a way that its policy covers,
and is followed by a note in the log and a wait, some of it drawn by chance (`exists_repetition`). In
a run the log always takes the note (`Parts.repeated`).
-/

namespace Conveyor.Run

open Activity

/-- The seconds that are waited in a course, in order. -/
def waits (events : List Event) : List Binary64 :=
  events.filterMap fun e =>
    match e.ask with
    | .wait seconds => some seconds
    | _ => none

/-- What is drawn by chance in a course, in order. -/
def draws (events : List Event) : List Chance :=
  events.filterMap fun
    | ⟨.draw, chance⟩ => some chance
    | _ => none

/-- The answers to the calls of a course, in order; none to a call that was given up. -/
def answers (events : List Event) : List (Option Answer) := (calls events).map (·.2.2)

/-- What the log shows of an attempt that failed. -/
def retryText (s : Step) (number : Nat) (e : StepError) : String :=
  s!"Step {s.order} attempt {number} failed: {e.message}"

/-- The entry of a run that is logged is moved on by one retry, with this message. -/
inductive Noted (message : String) : Option LogEntry → List LogOp → Option LogEntry → Prop where
  | unlogged : Noted message none [] none
  | logged {e e' : LogEntry} (next : RetryOf e e') (told : e'.message = some message) :
      Noted message (some e) [.update e'] (some e')

/-- What has been moved on by a retry is open. -/
theorem Noted.all_open {message : String} {o o' : Option LogEntry} {ops : List LogOp}
    (h : Noted message o ops o') : ∀ e, o' = some e → e.isTerminal = false := by
  intro e he
  cases h with
  | unlogged => cases he
  | logged next _ =>
    cases he
    rw [LogEntry.isTerminal, next.status]
    rfl

/-- One attempt at a step: the bookkeeping before and after it, what it asked for, how it ended, and
what was asked for between it and the next attempt. -/
structure Try where
  before : Progress
  events : List Event
  after : Progress
  result : Except Failure Output
  pause : List Event

namespace Try

/-- The attempt is one that the step can make. -/
def Happens (s : Step) (scope : Scope) (t : Try) : Prop :=
  Course (invoke s scope t.before) t.events (t.after, t.result)

/-- The attempt of a number failed, and after a note and a wait it was followed by another. -/
structure LeadsTo (c : ExecutorConfig) (s : Step) (number : Nat) (t t' : Try) : Prop where
  noted : ∃ e, t.result = .error (.step e) ∧
    Noted (retryText s number e) t.after.entry (logOps t.pause) t'.before.entry
  waited : ∃ delay chance, c.backoff number = .ok delay ∧ draws t.pause = [chance] ∧
    waits t.pause = [delay chance]
  silent : calls t.pause = []

end Try

/-- The attempts at a step from that of a number on, of which at most so many are repetitions. -/
structure Repetition (c : ExecutorConfig) (s : Step) (scope : Scope) (number : Nat) (p : Progress)
    (repeats : Nat) (events : List Event) (a : Attempted) (tries : List Try) : Prop where
  events_eq : events = tries.flatMap fun t => t.events ++ t.pause
  starts : tries.head?.map (·.before) = some p
  happens : ∀ t ∈ tries, t.Happens s scope
  leads : ∀ i t t', tries[i]? = some t → tries[i + 1]? = some t' → t.LeadsTo c s (number + i) t'
  ends : ∃ last, tries.getLast? = some last ∧ last.pause = [] ∧ last.after = a.progress ∧
    last.result = a.result
  attempts : a.attempts + 1 = number + tries.length
  bound : tries.length ≤ repeats + 1
  spent : ∀ e, a.result = .error (.step e) → tries.length = repeats + 1

variable {c : ExecutorConfig} {s : Step} {scope : Scope} {p q : Progress} {events : List Event}
  {a : Attempted}

/-! ## Notes -/

/-- A retry that is noted takes a look at the clock and an update of the log. -/
theorem events_retry {e e' : LogEntry} {message : String}
    (h : Course (Journal.retry e message) events (.ok e')) :
    ∃ now, events = [⟨.now, now⟩, ⟨.update e', ()⟩] ∧ e'.message = some message := by
  unfold Journal.retry at h
  split at h
  · obtain ⟨-, he⟩ := course_pure_iff.mp h
    cases he
  · obtain ⟨now, _, rfl, noted⟩ := course_request_bind_iff.mp h
    obtain ⟨_, _, rfl, rest⟩ := course_request_bind_iff.mp noted
    obtain ⟨rfl, he⟩ := course_pure_iff.mp rest
    cases he
    exact ⟨now, rfl, rfl⟩

theorem noted_of_course {message : String} (h : Course (noteRetry p message) events (.ok q)) :
    Noted message p.entry (logOps events) q.entry ∧ calls events = [] ∧ waits events = [] ∧
      draws events = [] := by
  unfold noteRetry at h
  cases hp : p.entry with
  | none =>
    rw [hp] at h
    obtain ⟨rfl, hq⟩ := course_pure_iff.mp h
    cases hq
    rw [hp]
    exact ⟨.unlogged, rfl, rfl, rfl⟩
  | some e =>
    rw [hp] at h
    obtain ⟨before, after, result, rfl, first, rest⟩ := course_bind_iff.mp h
    cases result with
    | error f =>
      obtain ⟨-, hq⟩ := course_pure_iff.mp rest
      cases hq
    | ok e' =>
      obtain ⟨rfl, hq⟩ := course_pure_iff.mp rest
      cases hq
      obtain ⟨next, hops⟩ := course_retry first
      obtain ⟨now, rfl, told⟩ := events_retry first
      exact ⟨.logged next told, rfl, rfl, rfl⟩

/-! ## The attempts one by one -/

/-- All that can happen from the attempt of a number on. It settles the step; or it failed and may be
repeated, but cannot be noted, or the wait after it cannot be worked out; or the next attempt is made
after a note and a wait. -/
inductive Attempting (c : ExecutorConfig) (s : Step) (scope : Scope) (number : Nat) (p : Progress) :
    Nat → List Event → Attempted → Prop where
  | settled {repeats : Nat} {q : Progress} {es : List Event} {result : Except Failure Output}
      (once : Course (invoke s scope p) es (q, result))
      (spent : ∀ e, result = .error (.step e) → repeats = 0) :
      Attempting c s scope number p repeats es ⟨q, number, result⟩
  | unnoted {left : Nat} {q : Progress} {es note : List Event} {e : StepError} {f : Fault}
      (once : Course (invoke s scope p) es (q, .error (.step e)))
      (refused : Course (noteRetry q (retryText s number e)) note (.error f)) :
      Attempting c s scope number p (left + 1) (es ++ note) ⟨q, number, .error (.fault f)⟩
  | unspaced {left : Nat} {q r : Progress} {es note : List Event} {e : StepError} {f : Fault}
      (once : Course (invoke s scope p) es (q, .error (.step e)))
      (noted : Course (noteRetry q (retryText s number e)) note (.ok r))
      (never : c.backoff number = .error f) :
      Attempting c s scope number p (left + 1) (es ++ note) ⟨r, number, .error (.fault f)⟩
  | repeated {left : Nat} {q r : Progress} {es note rest : List Event} {e : StepError}
      {delay : Chance → Binary64} {chance : Chance} {a : Attempted}
      (once : Course (invoke s scope p) es (q, .error (.step e)))
      (noted : Course (noteRetry q (retryText s number e)) note (.ok r))
      (spaced : c.backoff number = .ok delay)
      (later : Course (attemptFrom c s scope (number + 1) r left) rest a) :
      Attempting c s scope number p (left + 1)
        (es ++ (note ++ ⟨.draw, chance⟩ :: ⟨.wait (delay chance), ()⟩ :: rest)) a

theorem attempting_of_course {number repeats : Nat}
    (h : Course (attemptFrom c s scope number p repeats) events a) :
    Attempting c s scope number p repeats events a := by
  cases repeats with
  | zero =>
    obtain ⟨es, _, ⟨q, result⟩, rfl, once, rest⟩ := course_bind_iff.mp h
    obtain ⟨rfl, rfl⟩ := course_pure_iff.mp rest
    rw [List.append_nil]
    exact .settled once fun _ _ => rfl
  | succ left =>
    obtain ⟨es, _, ⟨q, result⟩, rfl, once, rest⟩ := course_bind_iff.mp h
    -- only a step error leads to another attempt
    match result, rest with
    | .ok out, rest =>
      obtain ⟨rfl, rfl⟩ := course_pure_iff.mp rest
      rw [List.append_nil]
      exact .settled once nofun
    | .error (.mapping _), rest | .error (.validation _), rest | .error (.config _), rest
    | .error (.fault _), rest =>
      obtain ⟨rfl, rfl⟩ := course_pure_iff.mp rest
      rw [List.append_nil]
      exact .settled once nofun
    | .error (.step e), rest =>
      obtain ⟨note, _, out, rfl, noted, rest⟩ := course_bind_iff.mp rest
      cases out with
      | error f =>
        obtain ⟨rfl, rfl⟩ := course_pure_iff.mp rest
        rw [List.append_nil]
        exact .unnoted once noted
      | ok r =>
        simp only at rest
        split at rest
        · rename_i never
          obtain ⟨rfl, rfl⟩ := course_pure_iff.mp rest
          rw [List.append_nil]
          exact .unspaced once noted never
        · rename_i spaced
          obtain ⟨_, _, rfl, waiting⟩ := course_request_bind_iff.mp rest
          obtain ⟨_, _, rfl, later⟩ := course_request_bind_iff.mp waiting
          exact .repeated once noted spaced later

/-- The attempts at a step from that of a number on end with these results, in order. -/
inductive Attempts (c : ExecutorConfig) (s : Step) (scope : Scope) :
    Nat → Progress → Nat → List Event → Attempted → List (Except Failure Output) → Prop where
  | settled {number repeats : Nat} {p q : Progress} {es : List Event}
      {result : Except Failure Output} (once : Course (invoke s scope p) es (q, result))
      (spent : ∀ e, result = .error (.step e) → repeats = 0) :
      Attempts c s scope number p repeats es ⟨q, number, result⟩ [result]
  | unnoted {number left : Nat} {p q : Progress} {es note : List Event} {e : StepError} {f : Fault}
      (once : Course (invoke s scope p) es (q, .error (.step e)))
      (refused : Course (noteRetry q (retryText s number e)) note (.error f)) :
      Attempts c s scope number p (left + 1) (es ++ note) ⟨q, number, .error (.fault f)⟩
        [.error (.step e)]
  | unspaced {number left : Nat} {p q r : Progress} {es note : List Event} {e : StepError}
      {f : Fault} (once : Course (invoke s scope p) es (q, .error (.step e)))
      (noted : Course (noteRetry q (retryText s number e)) note (.ok r))
      (never : c.backoff number = .error f) :
      Attempts c s scope number p (left + 1) (es ++ note) ⟨r, number, .error (.fault f)⟩
        [.error (.step e)]
  | repeated {number left : Nat} {p q r : Progress} {es note rest : List Event} {e : StepError}
      {delay : Chance → Binary64} {chance : Chance} {a : Attempted}
      {results : List (Except Failure Output)}
      (once : Course (invoke s scope p) es (q, .error (.step e)))
      (noted : Course (noteRetry q (retryText s number e)) note (.ok r))
      (spaced : c.backoff number = .ok delay)
      (later : Attempts c s scope (number + 1) r left rest a results) :
      Attempts c s scope number p (left + 1)
        (es ++ (note ++ ⟨.draw, chance⟩ :: ⟨.wait (delay chance), ()⟩ :: rest)) a
        (.error (.step e) :: results)

theorem exists_attempts {number repeats : Nat}
    (h : Course (attemptFrom c s scope number p repeats) events a) :
    ∃ results, Attempts c s scope number p repeats events a results := by
  induction repeats generalizing number p events with
  | zero =>
    cases attempting_of_course h with
    | settled once spent => exact ⟨_, .settled once spent⟩
  | succ left ih =>
    cases attempting_of_course h with
    | settled once spent => exact ⟨_, .settled once spent⟩
    | unnoted once refused => exact ⟨_, .unnoted once refused⟩
    | unspaced once noted never => exact ⟨_, .unspaced once noted never⟩
    | repeated once noted spaced later =>
      obtain ⟨results, hlater⟩ := ih later
      exact ⟨_, .repeated once noted spaced hlater⟩

/-- The attempts are counted from the first on. -/
theorem le_attempts {number repeats : Nat}
    (h : Course (attemptFrom c s scope number p repeats) events a) : number ≤ a.attempts := by
  induction repeats generalizing number p events with
  | zero =>
    cases attempting_of_course h with
    | settled => exact Nat.le_refl _
  | succ left ih =>
    cases attempting_of_course h with
    | settled | unnoted | unspaced => exact Nat.le_refl _
    | repeated _ _ _ later =>
      have hlater := ih later
      omega

/-- An output is that of the last attempt. -/
theorem exists_invoke_of_ok {number repeats : Nat} {out : Output}
    (h : Course (attemptFrom c s scope number p repeats) events a) (hok : a.result = .ok out) :
    ∃ q r es, es <:+ events ∧ Course (invoke s scope q) es (r, .ok out) := by
  induction repeats generalizing number p events with
  | zero =>
    cases attempting_of_course h with
    | settled once =>
      cases hok
      exact ⟨p, _, _, List.suffix_rfl, once⟩
  | succ left ih =>
    cases attempting_of_course h with
    | settled once =>
      cases hok
      exact ⟨p, _, _, List.suffix_rfl, once⟩
    | unnoted | unspaced => cases hok
    | repeated _ _ _ later =>
      obtain ⟨q, r, es, hsuffix, once⟩ := ih later
      refine ⟨q, r, es, ?_, once⟩
      -- all that comes before is the attempt that failed, its note and the wait
      exact (hsuffix.trans ((List.suffix_cons _ _).trans (List.suffix_cons _ _))).trans
        ((List.suffix_append _ _).trans (List.suffix_append _ _))

/-! ## Their repetition -/

theorem Repetition.single {number repeats : Nat} {result : Except Failure Output}
    (h : Course (invoke s scope p) events (q, result))
    (spent : ∀ e, result = .error (.step e) → repeats = 0) :
    Repetition c s scope number p repeats events ⟨q, number, result⟩
      [⟨p, events, q, result, []⟩] where
  events_eq := by simp
  starts := rfl
  happens := by
    intro t ht
    obtain rfl := List.mem_singleton.mp ht
    exact h
  leads := by
    intro i t t' _ ht'
    simp at ht'
  ends := ⟨_, rfl, rfl, rfl, rfl⟩
  attempts := rfl
  bound := by simp
  spent := by
    intro e he
    simp [spent e he]

/-- A failed attempt, a note of it and a wait, and the attempts after it. -/
theorem Repetition.cons {number repeats : Nat} {e : StepError} {es note rest : List Event}
    {r : Progress} {delay : Chance → Binary64} {tries : List Try}
    (h : Course (invoke s scope p) es (q, .error (.step e)))
    (noted : Course (noteRetry q (retryText s number e)) note (.ok r))
    (hdelay : c.backoff number = .ok delay) (chance : Chance)
    (later : Repetition c s scope (number + 1) r repeats rest a tries) :
    Repetition c s scope number p (repeats + 1)
      (es ++ (note ++ ⟨.draw, chance⟩ :: ⟨.wait (delay chance), ()⟩ :: rest)) a
      (⟨p, es, q, .error (.step e), note ++ [⟨.draw, chance⟩, ⟨.wait (delay chance), ()⟩]⟩ ::
        tries) := by
  obtain ⟨hnoted, hcalls, hwaits, hdraws⟩ := noted_of_course noted
  constructor
  case events_eq => simp [later.events_eq]
  case starts => rfl
  case happens => exact List.forall_mem_cons.mpr ⟨h, later.happens⟩
  case leads =>
    intro i t t' ht ht'
    cases i with
    | zero =>
      cases ht
      -- the next attempt starts with the bookkeeping after the note
      have hbefore : t'.before = r := by
        have hstarts := later.starts
        rw [List.head?_eq_getElem?, show tries[0]? = some t' from ht'] at hstarts
        exact Option.some.inj hstarts
      constructor
      case noted =>
        refine ⟨e, rfl, ?_⟩
        rw [hbefore, logOps_append,
          show logOps [⟨.draw, chance⟩, ⟨.wait (delay chance), ()⟩] = [] from rfl, List.append_nil]
        exact hnoted
      case waited =>
        refine ⟨delay, chance, hdelay, ?_, ?_⟩
        · rw [draws, List.filterMap_append, ← draws, hdraws]
          rfl
        · rw [waits, List.filterMap_append, ← waits, hwaits]
          rfl
      case silent =>
        rw [calls_append, hcalls]
        rfl
    | succ i =>
      have hlater := later.leads i t t' (by simpa using ht) (by simpa using ht')
      rwa [show number + (i + 1) = number + 1 + i by omega]
  case ends =>
    obtain ⟨last, hlast, hrest⟩ := later.ends
    exact ⟨last, by rw [List.getLast?_cons, hlast]; rfl, hrest⟩
  case attempts =>
    have hattempts := later.attempts
    simp only [List.length_cons]
    omega
  case bound =>
    have hbound := later.bound
    simp only [List.length_cons]
    omega
  case spent =>
    intro e' he'
    simp [later.spent e' he']

/-- The attempts at a step whose entry, if it has one, is open, and whose waits can be worked out. -/
theorem exists_repetition {number repeats : Nat}
    (open_ : ∀ e, p.entry = some e → e.isTerminal = false)
    (spaced : ∀ i : Nat, number ≤ i → i < number + repeats →
      ∃ delay, c.backoff i = .ok delay)
    (h : Course (attemptFrom c s scope number p repeats) events a) :
    ∃ tries, Repetition c s scope number p repeats events a tries := by
  induction repeats generalizing number p events with
  | zero =>
    cases attempting_of_course h with
    | settled once spent => exact ⟨_, .single once spent⟩
  | succ left ih =>
    cases attempting_of_course h with
    | settled once spent => exact ⟨_, .single once spent⟩
    | unnoted once refused =>
      obtain ⟨-, entry, hentry, hterminal⟩ := course_noteRetry_error refused
      rw [(quiet_invoke once).entry] at hentry
      simp [open_ entry hentry] at hterminal
    | unspaced _ _ never =>
      obtain ⟨delay, hdelay⟩ := spaced number (Nat.le_refl _) (by omega)
      rw [hdelay] at never
      cases never
    | repeated once noted hdelay later =>
      -- the entry is open after the note as well
      obtain ⟨hnoted, -⟩ := noted_of_course noted
      obtain ⟨tries, htries⟩ :=
        ih hnoted.all_open (fun i hi hlt => spaced i (by omega) (by omega)) later
      exact ⟨_, .cons once noted hdelay _ htries⟩

/-! ## The call of an attempt -/

/-- How an attempt ends whose call was answered so, or given up. -/
def answered (s : Step) (ref : DestinationRef) (sent : Value) (p : Progress) :
    Option Answer → Progress × Except Failure Output
  | some answer => settle ref sent p answer
  | none => (p, .error (.step (.timedOut s.timeout)))

/-- An attempt makes one call, that of the step in its scope, and ends as the answer says; or it makes
none, and nothing is noted of it. A step that has time and something to send makes its call. -/
theorem invoke_cases {out : Progress × Except Failure Output}
    (h : Course (invoke s scope p) events out) :
    (∃ ref request sent answer, s.action scope = .ok (.send ref request sent) ∧
      calls events = [(ref, request, answer)] ∧ out = answered s ref sent p answer) ∨
    calls events = [] ∧ out.1 = p ∧ (s.timeout.le .zero = false →
      ∀ ref request sent, s.action scope ≠ .ok (.send ref request sent)) := by
  unfold invoke at h
  split at h
  · rename_i hlate
    obtain ⟨_, _, rfl, rest⟩ := course_request_bind_iff.mp h
    obtain ⟨rfl, rfl⟩ := course_pure_iff.mp rest
    refine .inr ⟨rfl, rfl, fun htime => ?_⟩
    simp [htime] at hlate
  · unfold invokeInTime at h
    cases haction : s.action scope with
    | error f =>
      right
      simp only [haction] at h
      split at h
      · obtain ⟨_, _, rfl, rest⟩ := course_request_bind_iff.mp h
        obtain ⟨rfl, rfl⟩ := course_pure_iff.mp rest
        exact ⟨rfl, rfl, fun _ _ _ _ => nofun⟩
      · obtain ⟨rfl, rfl⟩ := course_pure_iff.mp h
        exact ⟨rfl, rfl, fun _ _ _ _ => nofun⟩
    | ok action =>
      simp only [haction] at h
      cases action with
      | finish output holds =>
        obtain ⟨_, _, rfl, rest⟩ := course_request_bind_iff.mp h
        obtain ⟨rfl, rfl⟩ := course_pure_iff.mp rest
        exact .inr ⟨rfl, rfl, fun _ _ _ _ => nofun⟩
      | pause seconds output =>
        obtain ⟨_, _, rfl, rest⟩ := course_request_bind_iff.mp h
        obtain ⟨rfl, rfl⟩ := course_pure_iff.mp rest
        exact .inr ⟨rfl, rfl, fun _ _ _ _ => nofun⟩
      | send ref request sent =>
        obtain ⟨answer, _, rfl, rest⟩ := course_request_bind_iff.mp h
        refine .inl ⟨ref, request, sent, answer, rfl, ?_⟩
        cases answer with
        | none =>
          obtain ⟨rfl, rfl⟩ := course_pure_iff.mp rest
          exact ⟨rfl, rfl⟩
        | some answer =>
          obtain ⟨rfl, rfl⟩ := course_pure_iff.mp rest
          exact ⟨rfl, rfl⟩

/-- An answer that is a result decides how the attempt ends. -/
theorem settle_result (ref : DestinationRef) (sent : Value) (p : Progress) (r : CallResult) :
    (r.success = true → ∃ out, (settle ref sent p (.result r)).2 = .ok out) ∧
      (r.success = false → ∃ e, (settle ref sent p (.result r)).2 = .error (.step e)) := by
  cases h : r.success <;> simp [settle, h]

namespace Repetition

variable {number repeats : Nat} {tries : List Try}

/-- The calls are those of the attempts, in order. -/
theorem calls_eq (h : Repetition c s scope number p repeats events a tries) :
    calls events = tries.flatMap fun t => calls t.events := by
  have hsilent : ∀ t ∈ tries, calls t.pause = [] := by
    intro t ht
    obtain ⟨i, hi⟩ := List.mem_iff_getElem?.mp ht
    obtain ⟨last, hlast, hpause, -⟩ := h.ends
    cases hnext : tries[i + 1]? with
    | some t' => exact (h.leads i t t' hi hnext).silent
    | none =>
      -- there is nothing after the last attempt
      have hend : i = tries.length - 1 := by
        have hlt := (List.getElem?_eq_some_iff.mp hi).1
        have hle := List.getElem?_eq_none_iff.mp hnext
        omega
      rw [List.getLast?_eq_getElem?, ← hend, hi] at hlast
      obtain rfl := Option.some.inj hlast
      rw [hpause]
      rfl
  rw [h.events_eq]
  clear h
  induction tries with
  | nil => rfl
  | cons t tries ih =>
    obtain ⟨ht, htries⟩ := List.forall_mem_cons.mp hsilent
    rw [List.flatMap_cons, List.flatMap_cons, calls_append, calls_append, ht, List.append_nil,
      ih htries]

/-- There is an attempt. -/
theorem length_pos (h : Repetition c s scope number p repeats events a tries) :
    0 < tries.length := by
  obtain ⟨last, hlast, -⟩ := h.ends
  exact List.length_pos_of_mem (List.mem_of_getLast? hlast)

/-- Every attempt makes the call that the step makes in its scope, or none. -/
theorem calls_mem (h : Repetition c s scope number p repeats events a tries) {t : Try}
    (ht : t ∈ tries) :
    calls t.events = [] ∨ ∃ ref request sent answer,
      s.action scope = .ok (.send ref request sent) ∧ calls t.events = [(ref, request, answer)] := by
  rcases invoke_cases (h.happens t ht) with ⟨ref, request, sent, answer, haction, hcalls, -⟩ | hnone
  · exact .inr ⟨ref, request, sent, answer, haction, hcalls⟩
  · exact .inl hnone.1

/-- If the step has time and something to send, every attempt gets one answer, which says how it
ends. -/
theorem answers_told {ref : DestinationRef} {request : Request} {sent : Value}
    (h : Repetition c s scope number p repeats events a tries)
    (haction : s.action scope = .ok (.send ref request sent))
    (htime : s.timeout.le .zero = false) :
    List.Forall₂ (fun t answer => t.result = (answered s ref sent t.before answer).2) tries
      (answers events) := by
  have honce : ∀ t ∈ tries, ∃ answer, calls t.events = [(ref, request, answer)] ∧
      t.result = (answered s ref sent t.before answer).2 := by
    intro t ht
    rcases invoke_cases (h.happens t ht) with
      ⟨ref', request', sent', answer, haction', hcalls, hout⟩ | ⟨-, -, hnone⟩
    · rw [haction] at haction'
      cases haction'
      exact ⟨answer, hcalls, congrArg Prod.snd hout⟩
    · exact absurd haction (hnone htime ref request sent)
  rw [answers, h.calls_eq]
  clear h
  induction tries with
  | nil => exact .nil
  | cons t tries ih =>
    obtain ⟨⟨answer, hcalls, hresult⟩, hrest⟩ := List.forall_mem_cons.mp honce
    rw [List.flatMap_cons, hcalls, List.singleton_append, List.map_cons]
    exact .cons hresult (ih hrest)

end Repetition

/-! ## The attempts of a run -/

/-- What has been retried is open if it was. -/
theorem Retries.all_open {o o' : Option LogEntry} {versions : List LogEntry}
    (h : Retries o versions o') (open_ : ∀ e, o = some e → e.isTerminal = false) :
    ∀ e, o' = some e → e.isTerminal = false := by
  intro e he
  subst he
  cases o with
  | some first => exact h.isOpen (open_ first rfl)
  | none => cases h

/-- The entry that a trail sets out with stays open at every visit. -/
theorem Trail.all_open {plan : List Step} {fuel : Nat} {order : Int} {visits : List Visit}
    {ended : Ended} (trail : Trail c plan fuel scope p order visits ended)
    (open_ : ∀ e, p.entry = some e → e.isTerminal = false) :
    ∀ v ∈ visits, ∀ e, v.before.entry = some e → e.isTerminal = false := by
  induction trail with
  | leave => exact List.forall_mem_nil _
  | exhaust => exact List.forall_mem_nil _
  | goOn _ happens next _ ih =>
    obtain ⟨o, ends⟩ := Visit.ends happens
    obtain ⟨-, versions, -, retries⟩ := Visit.leaves happens ends
    rw [next] at retries
    exact List.forall_mem_cons.mpr ⟨open_, ih (retries.all_open open_)⟩
  | stop _ _ _ => exact List.forall_mem_singleton.mpr open_

/-- In a run the entry is open whenever a step is attempted, so that a retry of it can be noted. The
attempts at each step that is visited are therefore a repetition. -/
theorem Parts.repeated {logged : Bool} {pipeline : Pipeline} {r : InboundRecord}
    {w : Option Workflow} {result : RunResult} {v : Visit}
    (parts : Parts c logged pipeline r w events result) (hv : v ∈ parts.visits)
    (tried : v.attempted = some a)
    (spaced : ∀ i : Nat, 1 ≤ i → i < 1 + retries v.step →
      ∃ delay, c.backoff i = .ok delay) :
    ∃ tries, Repetition c v.step v.scope 1 v.before (retries v.step) v.events a tries := by
  have happens : v.Happens c := (parts.trail.happens v hv).2
  rw [Visit.Happens, tried] at happens
  exact exists_repetition (parts.trail.all_open (all_open_of_openEntry parts.opens) v hv) spaced
    happens.2

end Conveyor.Run
