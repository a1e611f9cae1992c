import Conveyor.Proofs.Outcome
import Conveyor.Proofs.Run.Backoff
import Conveyor.Proofs.Run.Repetition

/-!
# The pace of a run

The limit bounds every wait between the attempts at a step. A step that keeps failing is repeated as
often as it may be, or until a wait cannot be worked out (`capped_until_overflow`).
-/

namespace Conveyor.Run

open Activity

variable {c : ExecutorConfig} {s : Step} {scope : Scope} {p : Progress} {events : List Event}
  {a : Attempted} {number repeats : Nat} {results : List (Except Failure Output)}

/-! ## Attempts -/

/-- Only a step of one kind pauses. -/
theorem kind_of_pause {seconds : Binary64} {output : Value}
    (h : s.action scope = .ok (.pause seconds output)) : s.kind = .delay := by
  have hsend : ∀ request sent, s.sendTo request sent ≠ .ok (.pause seconds output) := by
    intro request sent hpause
    unfold Step.sendTo at hpause
    split at hpause <;> cases hpause
  obtain ⟨input, -, hinput⟩ := Outcome.bind_eq_ok_iff.mp h
  cases hkind : s.kind with
  | delay => rfl
  | restCall =>
    rw [hkind] at hinput
    obtain ⟨body, -, hbody⟩ := Outcome.bind_eq_ok_iff.mp hinput
    exact absurd hbody (hsend _ _)
  | dbQuery | sapQuery =>
    rw [hkind] at hinput
    obtain ⟨fields, -, hfields⟩ := Outcome.bind_eq_ok_iff.mp hinput
    obtain ⟨resolved, -, hresolved⟩ := Outcome.bind_eq_ok_iff.mp hfields
    obtain ⟨statement, -, hstatement⟩ := Outcome.bind_eq_ok_iff.mp hresolved
    exact absurd hstatement (hsend _ _)
  | transform =>
    rw [hkind] at hinput
    obtain ⟨record, -, hrecord⟩ := Outcome.bind_eq_ok_iff.mp hinput
    obtain ⟨renamed, -, hrenamed⟩ := Outcome.bind_eq_ok_iff.mp hrecord
    cases hrenamed
  | condition =>
    rw [hkind] at hinput
    obtain ⟨holds, -, hholds⟩ := Outcome.bind_eq_ok_iff.mp hinput
    cases hholds

/-- An attempt waits for nothing, unless it is that of a pause. -/
theorem waits_invoke {out : Progress × Except Failure Output}
    (h : Course (invoke s scope p) events out) :
    waits events = [] ∨ s.kind = .delay ∧ ∃ o, out.2 = .ok o := by
  unfold invoke at h
  split at h
  · obtain ⟨_, _, rfl, rest⟩ := course_request_bind_iff.mp h
    obtain ⟨rfl, rfl⟩ := course_pure_iff.mp rest
    exact .inl rfl
  · unfold invokeInTime at h
    cases haction : s.action scope with
    | error f =>
      left
      simp only [haction] at h
      split at h
      · obtain ⟨_, _, rfl, rest⟩ := course_request_bind_iff.mp h
        obtain ⟨rfl, rfl⟩ := course_pure_iff.mp rest
        rfl
      · obtain ⟨rfl, rfl⟩ := course_pure_iff.mp h
        rfl
    | ok action =>
      simp only [haction] at h
      cases action with
      | finish output holds =>
        obtain ⟨_, _, rfl, rest⟩ := course_request_bind_iff.mp h
        obtain ⟨rfl, rfl⟩ := course_pure_iff.mp rest
        exact .inl rfl
      | send ref request sent =>
        obtain ⟨answer, _, rfl, rest⟩ := course_request_bind_iff.mp h
        cases answer with
        | none | some _ =>
          obtain ⟨rfl, rfl⟩ := course_pure_iff.mp rest
          exact .inl rfl
      | pause seconds output =>
        obtain ⟨_, _, rfl, rest⟩ := course_request_bind_iff.mp h
        obtain ⟨rfl, rfl⟩ := course_pure_iff.mp rest
        exact .inr ⟨kind_of_pause haction, _, rfl⟩

/-- An attempt that is repeated waits for nothing. -/
theorem waits_of_failed {q : Progress} {e : StepError}
    (h : Course (invoke s scope p) events (q, .error (.step e))) : waits events = [] := by
  rcases waits_invoke h with hnone | ⟨-, o, ho⟩
  · exact hnone
  · cases ho

theorem Attempts.length_pos (h : Attempts c s scope number p repeats events a results) :
    0 < results.length := by
  cases h <;> exact Nat.succ_pos _

/-- How attempts from that of a number on end, of which at most so many are repetitions: with the
last of them, or because the wait after it cannot be worked out. -/
structure Paced (c : ExecutorConfig) (s : Step) (number repeats : Nat) (events : List Event)
    (a : Attempted) (results : List (Except Failure Output)) : Prop where
  count : a.attempts + 1 = number + results.length
  spaced : ∀ i : Nat, number ≤ i → i < a.attempts →
    ∃ delay, c.backoff i = .ok delay
  waited : s.kind ≠ .delay → ∀ (i : Nat) seconds, (waits events)[i]? = some seconds →
    ∃ delay chance, c.backoff (number + i : Nat) = .ok delay ∧ seconds = delay chance
  ended : results.getLast? = some a.result ∧
      (∀ e, a.result = .error (.step e) → a.attempts = number + repeats) ∨
    a.attempts < number + repeats ∧ ∃ f, a.result = .error (.fault f) ∧
      c.backoff a.attempts = .error f

theorem Attempts.paced (h : Attempts c s scope number p repeats events a results)
    (open_ : ∀ e, p.entry = some e → e.isTerminal = false) :
    Paced c s number repeats events a results := by
  induction h with
  | @settled number repeats p q es result once spent =>
    constructor
    case count => rfl
    case spaced => exact fun i hle hlt => absurd hlt (Nat.not_lt.mpr hle)
    case waited =>
      intro hkind i seconds hi
      rcases waits_invoke once with hnone | ⟨hdelay, -⟩
      · rw [hnone] at hi
        cases hi
      · exact absurd hdelay hkind
    case ended =>
      refine .inl ⟨rfl, fun e he => ?_⟩
      rw [spent e he]
      rfl
  | unnoted once refused =>
    -- an open entry takes the note
    obtain ⟨-, entry, hentry, hterminal⟩ := course_noteRetry_error refused
    rw [(quiet_invoke once).entry] at hentry
    simp [open_ entry hentry] at hterminal
  | unspaced once noted never =>
    obtain ⟨-, -, hnone, -⟩ := noted_of_course noted
    constructor
    case count => rfl
    case spaced => exact fun i hle hlt => absurd hlt (Nat.not_lt.mpr hle)
    case waited =>
      intro _ i seconds hi
      rw [waits, List.filterMap_append, ← waits, ← waits, waits_of_failed once, hnone] at hi
      cases hi
    case ended => exact .inr ⟨Nat.lt_add_of_pos_right (Nat.succ_pos _), _, rfl, never⟩
  | @repeated number left p q r es note rest e delay chance a results once noted spaced _ ih =>
    obtain ⟨hnoted, -, hnone, -⟩ := noted_of_course noted
    have later := ih hnoted.all_open
    have hcount := later.count
    constructor
    case count =>
      rw [List.length_cons]
      omega
    case spaced =>
      intro i hle hlt
      rcases hle.eq_or_lt with rfl | hnext
      · exact ⟨delay, spaced⟩
      · exact later.spaced i hnext hlt
    case waited =>
      intro hkind i seconds hi
      have hwaits : waits (es ++ (note ++ ⟨.draw, chance⟩ :: ⟨.wait (delay chance), ()⟩ :: rest)) =
          delay chance :: waits rest := by
        rw [waits, List.filterMap_append, List.filterMap_append, ← waits, ← waits,
          waits_of_failed once, hnone]
        rfl
      rw [hwaits] at hi
      cases i with
      | zero =>
        cases hi
        exact ⟨delay, chance, spaced, rfl⟩
      | succ i =>
        have hlater := later.waited hkind i seconds hi
        rwa [show number + (i + 1) = number + 1 + i by omega]
    case ended =>
      rcases later.ended with ⟨hlast, hspent⟩ | ⟨hspare, never⟩
      · refine .inl ⟨by rw [List.getLast?_cons, hlast]; rfl, fun e he => ?_⟩
        rw [hspent e he]
        omega
      · exact .inr ⟨by omega, never⟩

/-- How a step that a run visits is attempted: the attempts end with these results, in order. -/
structure IsPaced (c : ExecutorConfig) (v : Visit) (a : Attempted)
    (results : List (Except Failure Output)) : Prop where
  attempts : Attempts c v.step v.scope 1 v.before (retries v.step) v.events a results
  count : a.attempts = results.length
  /-- Every wait is that after the attempts made so far, by what was drawn, and the limit bounds it. -/
  waited : v.step.kind ≠ .delay → ∀ (i : Nat) seconds, (waits v.events)[i]? = some seconds →
    ∃ delay chance, c.backoff (i + 1 : Nat) = .ok delay ∧ seconds = delay chance ∧
      (c.jitter.isFinite = true → seconds.le c.maxDelay = true)
  /-- Where nothing is left to chance, it does not count what was drawn. -/
  still : c.jitter = .zero → v.step.kind ≠ .delay →
    ∀ (i : Nat) seconds, (waits v.events)[i]? = some seconds →
      c.backoff (i + 1 : Nat) = .ok fun _ => seconds
  /-- The step ends with its last attempt, unless a wait cannot be worked out. -/
  ended : results.getLast? = some a.result ∨
    a.attempts ≤ retries v.step ∧ a.result = .error (.fault .overflow) ∧
      c.backoff a.attempts = .error .overflow
  /-- A step that keeps failing is ended by the first such wait. -/
  overtaken : ∀ last : Nat,
    (∀ n : Nat, 0 < n → ((∃ delay, c.backoff n = .ok delay) ↔ n ≤ last)) →
    last < retries v.step → (∀ r ∈ results, ∃ e, r = .error (.step e)) →
    a.attempts = last + 1 ∧ a.result = .error (.fault .overflow)

theorem Attempts.isPaced {v : Visit}
    (h : Attempts c v.step v.scope 1 v.before (retries v.step) v.events a results)
    (open_ : ∀ e, v.before.entry = some e → e.isTerminal = false)
    (pace : Backoff.IsPace (.inr c.backoffBase) c.maxDelay) : IsPaced c v a results := by
  have capped := pace.isCapped
  have paced := h.paced open_
  have hcount := paced.count
  have hpos := h.length_pos
  -- a wait that cannot be worked out has overflowed
  have hoverflow : ∀ {f}, c.backoff a.attempts = .error f → f = .overflow := by
    intro f hf
    have hf : Backoff.delay (.inr c.backoffBase) .zero (some c.maxDelay) a.attempts = .error f :=
      Backoff.delay_eq_error_iff.mpr (Backoff.delay_eq_error_iff.mp hf)
    rcases capped.bounded a.attempts (by omega) with ⟨d, hd, -⟩ | hd
    · rw [hf] at hd
      cases hd
    · rw [hf] at hd
      exact Except.error.inj hd
  have waited (hkind : v.step.kind ≠ .delay) {i : Nat} {seconds : Binary64}
      (hi : (waits v.events)[i]? = some seconds) :
      ∃ delay chance, c.backoff (i + 1 : Nat) = .ok delay ∧ seconds = delay chance := by
    rw [Nat.add_comm]
    exact paced.waited hkind i seconds hi
  constructor
  case attempts => exact h
  case count => omega
  case waited =>
    intro hkind i seconds hi
    obtain ⟨delay, chance, hdelay, rfl⟩ := waited hkind hi
    exact ⟨delay, chance, hdelay, rfl, fun hjitter => Backoff.delay_le pace.baseFinite
      (Binary64.isNan_eq_false pace.limitFinite) hjitter hdelay chance⟩
  case still =>
    intro hstill hkind i seconds hi
    obtain ⟨delay, chance, hdelay, rfl⟩ := waited hkind hi
    rw [ExecutorConfig.backoff, hstill] at hdelay ⊢
    rcases capped.bounded (i + 1) (Nat.succ_pos i) with ⟨d, hd, -⟩ | hd
    · rw [hdelay] at hd
      obtain rfl := Except.ok.inj hd
      exact hdelay
    · rw [hdelay] at hd
      cases hd
  case ended =>
    refine paced.ended.imp And.left fun ⟨hspare, f, hresult, never⟩ => ?_
    obtain rfl := hoverflow never
    exact ⟨by omega, hresult, never⟩
  case overtaken =>
    intro last hlast hspare failed
    -- all attempts but the last were followed by a wait that could be worked out
    have hwithin : a.attempts ≤ last + 1 := by
      by_contra hmore
      have hlate := (hlast (last + 1) (Nat.succ_pos last)).mp
        (paced.spaced (last + 1) (by omega) (by omega))
      omega
    rcases paced.ended with ⟨hresult, hspent⟩ | ⟨-, f, hresult, never⟩
    · obtain ⟨e, he⟩ := failed _ (List.mem_of_getLast? hresult)
      have hall := hspent e he
      omega
    · obtain rfl := hoverflow never
      refine ⟨?_, hresult⟩
      by_contra hfewer
      obtain ⟨d, hd⟩ := (hlast a.attempts (by omega)).mpr (by omega)
      rw [never] at hd
      cases hd

/-! ## The limit of the waits -/

/-- Over a finite base and up to a finite limit, neither of them negative, and with nothing left to
chance, a wait is worked out unless its power overflows, and it is never longer than the limit. Over a
base of at least one the waits do not become shorter. Over a base of at most one all can be worked out,
as long as the number of attempts is a double, but over a base above one only those after so many
attempts. So in a run the limit bounds every wait, whatever is drawn; but a step that keeps failing, and
that may be repeated more often than that, is ended by its own backoff. -/
theorem capped_until_overflow {base : Backoff.Base} {m : Binary64} (pace : Backoff.IsPace base m) :
    Backoff.IsCapped base m ∧
      ∀ (c : ExecutorConfig), base = .inr c.backoffBase → m = c.maxDelay →
        ∀ {σ : Type} (surroundings : Surroundings σ) (st : σ) (logged : Bool) (p : Pipeline)
          (r : InboundRecord) (w : Option Workflow) (result : RunResult),
          (carryOut surroundings (p.run c logged r w) st).1 = .ok result →
          ∃ parts : Parts c logged p r w
              (Activity.events surroundings (p.run c logged r w) st) result,
            ∀ v ∈ parts.visits, ∀ a, v.attempted = some a → ∃ results, IsPaced c v a results := by
  refine ⟨pace.isCapped, ?_⟩
  rintro c rfl rfl σ surroundings st logged p r w result returned
  have course := course_events surroundings (p.run c logged r w) st
  rw [returned] at course
  obtain ⟨parts⟩ := exists_parts course
  refine ⟨parts, fun v hv a tried => ?_⟩
  have happens : v.Happens c := (parts.trail.happens v hv).2
  rw [Visit.Happens, tried] at happens
  obtain ⟨results, hattempts⟩ := exists_attempts happens.2
  exact ⟨results, hattempts.isPaced (parts.trail.all_open (all_open_of_openEntry parts.opens) v hv)
    pace⟩

/-- A base whose second power is too large to be a double, and nothing left to chance. -/
def steep : ExecutorConfig where
  backoffBase := .ofDecimal false 1 200
  jitter := .zero

theorem steep_capped_until_overflow :
    Backoff.IsPace (.inr steep.backoffBase) steep.maxDelay ∧
      Backoff.IsCapped (.inr steep.backoffBase) steep.maxDelay ∧
      ∃ result,
        (recovering.carryOut Recording.adapter (patient.run steep true reading none)).1 =
          .ok result ∧
        result.outcomes.map (·.error) = [some "OverflowError"] ∧
        ∃ parts : Parts steep true patient reading none
            (Activity.events (World.reply Recording.adapter) (patient.run steep true reading none)
              recovering) result,
          ∀ v ∈ parts.visits, ∀ a, v.attempted = some a → ∃ results, IsPaced steep v a results := by
  have pace : Backoff.IsPace (.inr steep.backoffBase) steep.maxDelay :=
    ⟨by decide +kernel, Binary64.value_nonneg (by decide +kernel), by decide +kernel,
      Binary64.value_nonneg (by decide +kernel)⟩
  obtain ⟨capped, paced⟩ := capped_until_overflow pace
  obtain ⟨result, returned, overflown⟩ : ∃ result,
      (recovering.carryOut Recording.adapter (patient.run steep true reading none)).1 =
        .ok result ∧ result.outcomes.map (·.error) = [some "OverflowError"] := by
    unfold Pipeline.run Pipeline.plan
    rw [Pipeline.sortedSteps_eq (p := patient) (by decide)]
    decide +kernel
  exact ⟨pace, capped, result, returned, overflown,
    paced steep rfl rfl _ _ _ _ _ _ _ returned⟩

/-- After two thousand attempts the default base gives no wait, though the limit is half a minute; and a
step that may be attempted three times fails over the second wait. -/
theorem steep_overflow :
    Backoff.delay (.inr (.ofRatio false 3 2)) .zero (some (.ofInt 30)) 2000 = .error .overflow ∧
      ∃ result,
        (recovering.carryOut Recording.adapter (patient.run steep true reading none)).1 =
          .ok result ∧
        result.status = "Aborted" ∧ result.entry.map (·.retryCount) = some 2 ∧
        result.outcomes.map (·.error) = [some "OverflowError"] := by
  refine ⟨Backoff.delay_eq_error_iff.mpr (by decide +kernel), ?_⟩
  unfold Pipeline.run Pipeline.plan
  rw [Pipeline.sortedSteps_eq (p := patient) (by decide)]
  decide +kernel

end Conveyor.Run
