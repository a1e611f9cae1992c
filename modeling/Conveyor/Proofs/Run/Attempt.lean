import Conveyor.Proofs.Run.Course
import Conveyor.Run.Execution

/-!
# Attempts

What taking a step does to the bookkeeping of a run. Invoking a step leaves the log and the outcomes
alone; only a retry touches the log, by one version of the entry that counts one retry more. So the
attempts of a step leave a chain of such versions behind (`Retries`), as long as the number of
attempts says unless the step ended in a failure that is not counted.
-/

namespace Conveyor.Run

open Activity

/-! ## Invoking a step -/

/-- Neither the log nor the bookkeeping for it changes. -/
structure Quiet (p : Progress) (events : List Event) (p' : Progress) : Prop where
  entry : p'.entry = p.entry
  outcomes : p'.outcomes = p.outcomes
  logOps : logOps events = []

variable {c : ExecutorConfig} {s : Step} {scope : Scope} {p p' : Progress} {events : List Event}

theorem quiet_settle (ref : DestinationRef) (sent : Value) (p : Progress) (answer : Answer) :
    (settle ref sent p answer).1.entry = p.entry ∧
      (settle ref sent p answer).1.outcomes = p.outcomes := by
  cases answer with
  | fault f => exact ⟨rfl, rfl⟩
  | result r =>
    simp only [settle]
    split <;> exact ⟨rfl, rfl⟩

theorem quiet_send {ref : DestinationRef} {request : Request} {sent : Value}
    {out : Progress × Except Failure Output}
    (h : Course (send s ref request sent p) events out) : Quiet p events out.1 := by
  obtain ⟨reply, after, rfl, rest⟩ := course_request_bind_iff.mp h
  cases reply with
  | none =>
    obtain ⟨rfl, rfl⟩ := course_pure_iff.mp rest
    exact ⟨rfl, rfl, rfl⟩
  | some answer =>
    obtain ⟨rfl, rfl⟩ := course_pure_iff.mp rest
    obtain ⟨he, ho⟩ := quiet_settle ref sent p answer
    exact ⟨he, ho, rfl⟩

theorem quiet_perform {action : Action} {out : Progress × Except Failure Output}
    (h : Course (perform s p action) events out) : Quiet p events out.1 := by
  cases action with
  | finish output holds =>
    obtain ⟨_, after, rfl, rest⟩ := course_request_bind_iff.mp h
    obtain ⟨rfl, rfl⟩ := course_pure_iff.mp rest
    exact ⟨rfl, rfl, rfl⟩
  | send ref request sent => exact quiet_send h
  | pause seconds output =>
    obtain ⟨_, after, rfl, rest⟩ := course_request_bind_iff.mp h
    obtain ⟨rfl, rfl⟩ := course_pure_iff.mp rest
    exact ⟨rfl, rfl, rfl⟩

theorem quiet_invokeInTime {out : Progress × Except Failure Output}
    (h : Course (invokeInTime s scope p) events out) : Quiet p events out.1 := by
  unfold invokeInTime at h
  cases ha : s.action scope with
  | ok action =>
    rw [ha] at h
    exact quiet_perform h
  | error e =>
    simp only [ha] at h
    split at h
    · obtain ⟨_, after, rfl, rest⟩ := course_request_bind_iff.mp h
      obtain ⟨rfl, rfl⟩ := course_pure_iff.mp rest
      exact ⟨rfl, rfl, rfl⟩
    · obtain ⟨rfl, rfl⟩ := course_pure_iff.mp h
      exact ⟨rfl, rfl, rfl⟩

/-- Invoking a step leaves the log and the outcomes alone. -/
theorem quiet_invoke {out : Progress × Except Failure Output}
    (h : Course (invoke s scope p) events out) : Quiet p events out.1 := by
  unfold invoke at h
  split at h
  · obtain ⟨_, after, rfl, rest⟩ := course_request_bind_iff.mp h
    obtain ⟨rfl, rfl⟩ := course_pure_iff.mp rest
    exact ⟨rfl, rfl, rfl⟩
  · exact quiet_invokeInTime h

/-! ## Versions of an entry -/

/-- `e'` is the version of `e` with one retry more. -/
structure RetryOf (e e' : LogEntry) : Prop where
  id : e'.id = e.id
  status : e'.status = .retry
  retryCount : e'.retryCount = e.retryCount + 1
  createdAt : e'.createdAt = e.createdAt
  expiresAt : e'.expiresAt = e.expiresAt

/-- The versions through which an entry goes, each one retry after the one before; a run without an
entry has none. -/
inductive Retries : Option LogEntry → List LogEntry → Option LogEntry → Prop where
  | refl (o : Option LogEntry) : Retries o [] o
  | step {e e' : LogEntry} {versions : List LogEntry} {last : Option LogEntry}
      (next : RetryOf e e') (rest : Retries (some e') versions last) :
      Retries (some e) (e' :: versions) last

namespace Retries

variable {o o' o'' : Option LogEntry} {e last : LogEntry} {us vs : List LogEntry}

theorem trans (h : Retries o us o') (h' : Retries o' vs o'') : Retries o (us ++ vs) o'' := by
  induction h with
  | refl o => exact h'
  | step next _ ih => exact .step next (ih h')

/-- An entry stays an entry. -/
theorem exists_last (h : Retries (some e) us o) : ∃ last, o = some last := by
  generalize hs : some e = first at h
  induction h generalizing e with
  | refl o => exact ⟨e, hs.symm⟩
  | step next _ ih => exact ih rfl

/-- The last version counts all retries, and keeps what no retry changes. -/
theorem last_eq (h : Retries (some e) us (some last)) :
    last.retryCount = e.retryCount + us.length ∧ last.id = e.id ∧
      last.createdAt = e.createdAt ∧ last.expiresAt = e.expiresAt := by
  generalize hs : some e = first at h
  generalize hl : some last = final at h
  induction h generalizing e with
  | refl o =>
    subst hs
    cases hl
    exact ⟨rfl, rfl, rfl, rfl⟩
  | step next _ ih =>
    cases hs
    obtain ⟨hcount, hid, hcreated, hexpires⟩ := ih rfl hl
    refine ⟨?_, hid.trans next.id, hcreated.trans next.createdAt,
      hexpires.trans next.expiresAt⟩
    rw [hcount, next.retryCount, List.length_cons]
    omega

/-- Every version is in retry, is numbered by its place, and keeps what no retry changes. -/
theorem version (h : Retries (some e) us o) {i : Nat} {v : LogEntry} (hi : us[i]? = some v) :
    v.status = .retry ∧ v.retryCount = e.retryCount + i + 1 ∧ v.id = e.id ∧
      v.createdAt = e.createdAt ∧ v.expiresAt = e.expiresAt := by
  generalize hs : some e = first at h
  induction h generalizing e i with
  | refl o => simp at hi
  | step next _ ih =>
    cases hs
    cases i with
    | zero =>
      cases hi
      exact ⟨next.status, next.retryCount, next.id, next.createdAt, next.expiresAt⟩
    | succ i =>
      obtain ⟨hstatus, hcount, hid, hcreated, hexpires⟩ := ih (by simpa using hi) rfl
      refine ⟨hstatus, ?_, hid.trans next.id, hcreated.trans next.createdAt,
        hexpires.trans next.expiresAt⟩
      rw [hcount, next.retryCount]
      omega

/-- An open entry stays open. -/
theorem isOpen (h : Retries (some e) us (some last)) (he : e.isTerminal = false) :
    last.isTerminal = false := by
  generalize hs : some e = first at h
  generalize hl : some last = final at h
  induction h generalizing e with
  | refl o =>
    subst hs
    cases hl
    exact he
  | step next _ ih =>
    refine ih ?_ rfl hl
    rw [LogEntry.isTerminal, next.status]
    rfl

end Retries

/-! ## The attempts of a step -/

theorem course_retry {e e' : LogEntry} {message : String}
    (h : Course (Journal.retry e message) events (.ok e')) :
    RetryOf e e' ∧ logOps events = [.update e'] := by
  simp only [Journal.retry] at h
  split at h
  · obtain ⟨-, he⟩ := course_pure_iff.mp h
    cases he
  · obtain ⟨now, _, rfl, noted⟩ := course_request_bind_iff.mp h
    obtain ⟨_, _, rfl, rest⟩ := course_request_bind_iff.mp noted
    obtain ⟨rfl, he⟩ := course_pure_iff.mp rest
    cases he
    exact ⟨⟨rfl, rfl, rfl, rfl, rfl⟩, rfl⟩

/-- A retry is noted by one new version of the entry, if there is an entry. -/
theorem course_noteRetry {message : String} (h : Course (noteRetry p message) events (.ok p')) :
    p'.outcomes = p.outcomes ∧ ∃ versions, logOps events = versions.map .update ∧
      Retries p.entry versions p'.entry ∧ (p.entry.isSome → versions.length = 1) := by
  unfold noteRetry at h
  cases hp : p.entry with
  | none =>
    rw [hp] at h
    obtain ⟨rfl, hp'⟩ := course_pure_iff.mp h
    cases hp'
    exact ⟨rfl, [], rfl, hp ▸ .refl _, by simp⟩
  | some e =>
    rw [hp] at h
    obtain ⟨before, after, result, rfl, first, rest⟩ := course_bind_iff.mp h
    cases result with
    | error f =>
      obtain ⟨-, hp'⟩ := course_pure_iff.mp rest
      cases hp'
    | ok e' =>
      obtain ⟨rfl, hp'⟩ := course_pure_iff.mp rest
      cases hp'
      obtain ⟨next, hops⟩ := course_retry first
      exact ⟨rfl, [e'], by simpa using hops, .step next (.refl _), fun _ => rfl⟩

/-- Noting a retry fails only for an entry that is final already. -/
theorem course_noteRetry_error {message : String} {f : Fault}
    (h : Course (noteRetry p message) events (.error f)) :
    logOps events = [] ∧ ∃ e, p.entry = some e ∧ e.isTerminal = true := by
  unfold noteRetry at h
  cases hp : p.entry with
  | none =>
    rw [hp] at h
    obtain ⟨-, hf⟩ := course_pure_iff.mp h
    cases hf
  | some e =>
    rw [hp] at h
    obtain ⟨before, after, result, rfl, first, rest⟩ := course_bind_iff.mp h
    cases result with
    | ok e' =>
      obtain ⟨-, hf⟩ := course_pure_iff.mp rest
      cases hf
    | error g =>
      obtain ⟨rfl, -⟩ := course_pure_iff.mp rest
      simp only [Journal.retry] at first
      split at first
      · rename_i hterminal
        obtain ⟨rfl, -⟩ := course_pure_iff.mp first
        exact ⟨rfl, e, rfl, hterminal⟩
      · obtain ⟨now, _, rfl, noted⟩ := course_request_bind_iff.mp first
        obtain ⟨_, _, rfl, last⟩ := course_request_bind_iff.mp noted
        obtain ⟨-, hg⟩ := course_pure_iff.mp last
        cases hg

/-- Whether the attempts of a step that ended so are counted in its outcome. -/
def Attempted.isCounted (a : Attempted) : Bool :=
  match a.result with
  | .ok _ | .error (.step _) => true
  | .error _ => false

/-- What the attempts of a step leave behind: as many versions of the entry as there were
retries. -/
structure Leaves (p : Progress) (first : Nat) (events : List Event) (a : Attempted)
    (versions : List LogEntry) : Prop where
  outcomes : a.progress.outcomes = p.outcomes
  logOps : logOps events = versions.map .update
  retries : Retries p.entry versions a.progress.entry
  attempts : ∀ e, p.entry = some e → e.isTerminal = false → a.isCounted = true →
    a.attempts = first + versions.length

theorem Leaves.of_quiet {first : Nat} {a : Attempted} (h : Quiet p events a.progress)
    (ha : a.attempts = first) : Leaves p first events a [] where
  outcomes := h.outcomes
  logOps := h.logOps
  retries := h.entry ▸ .refl _
  attempts := fun _ _ _ _ => ha

/-- A failed attempt, the note of it, and the attempts after it. -/
theorem Leaves.cons {first : Nat} {a : Attempted} {q r : Progress} {es fs gs : List Event}
    {us vs : List LogEntry} (h : Quiet p es q) (hr : r.outcomes = q.outcomes)
    (hops : Activity.logOps fs = us.map .update) (hus : Retries q.entry us r.entry)
    (hone : q.entry.isSome → us.length = 1) (rest : Leaves r (first + 1) gs a vs) :
    Leaves p first (es ++ (fs ++ gs)) a (us ++ vs) where
  outcomes := by rw [rest.outcomes, hr, h.outcomes]
  logOps := by simp [h.logOps, hops, rest.logOps]
  retries := (h.entry ▸ hus).trans rest.retries
  attempts := by
    intro e he hopen hcounted
    -- the entry is open after the note as well, so the later attempts are counted
    have hq : q.entry = some e := h.entry.trans he
    obtain ⟨e', he'⟩ := (hq ▸ hus).exists_last
    have hopen' : e'.isTerminal = false := by
      rw [hq, he'] at hus
      exact hus.isOpen hopen
    rw [rest.attempts e' he' hopen' hcounted, List.length_append, hone (by simp [hq])]
    omega

/-- Every way through the attempts of a step, each failed one but the last noted as a retry. -/
theorem leaves_attemptFrom {first n : Nat} {a : Attempted}
    (h : Course (attemptFrom c s scope first p n) events a) :
    ∃ versions, Leaves p first events a versions := by
  induction n generalizing first p events with
  | zero =>
    obtain ⟨before, after, out, rfl, once, rest⟩ := course_bind_iff.mp h
    obtain ⟨rfl, rfl⟩ := course_pure_iff.mp rest
    refine ⟨[], .of_quiet ?_ rfl⟩
    simpa using quiet_invoke once
  | succ n ih =>
    obtain ⟨before, after, ⟨q, result⟩, rfl, once, rest⟩ := course_bind_iff.mp h
    have hquiet : Quiet p before q := quiet_invoke once
    -- only a step error leads to another attempt
    match result, rest with
    | .ok out, rest =>
      obtain ⟨rfl, rfl⟩ := course_pure_iff.mp rest
      exact ⟨[], .of_quiet (by simpa using hquiet) rfl⟩
    | .error (.mapping _), rest | .error (.validation _), rest | .error (.config _), rest
    | .error (.fault _), rest =>
      obtain ⟨rfl, rfl⟩ := course_pure_iff.mp rest
      exact ⟨[], .of_quiet (by simpa using hquiet) rfl⟩
    | .error (.step e), rest =>
      obtain ⟨noted, after, out, rfl, note, rest⟩ := course_bind_iff.mp rest
      cases out with
      | error f =>
        -- the retry could not be noted, and the entry is as it was
        obtain ⟨rfl, rfl⟩ := course_pure_iff.mp rest
        obtain ⟨hops, -⟩ := course_noteRetry_error note
        exact ⟨[], hquiet.outcomes, by simp [hquiet.logOps, hops], hquiet.entry ▸ .refl _,
          fun _ _ _ hcounted => by cases hcounted⟩
      | ok r =>
        obtain ⟨hr, us, hops, hus, hone⟩ := course_noteRetry note
        simp only at rest
        split at rest
        · obtain ⟨rfl, rfl⟩ := course_pure_iff.mp rest
          exact ⟨us, hr.trans hquiet.outcomes, by simp [hquiet.logOps, hops],
            hquiet.entry ▸ hus, fun _ _ _ hcounted => by cases hcounted⟩
        · obtain ⟨_, drawn, rfl, waits⟩ := course_request_bind_iff.mp rest
          obtain ⟨_, waited, rfl, again⟩ := course_request_bind_iff.mp waits
          obtain ⟨vs, hvs⟩ := ih again
          refine ⟨us ++ vs, .cons hquiet hr hops hus hone ?_⟩
          exact ⟨hvs.outcomes, hvs.logOps, hvs.retries, hvs.attempts⟩

theorem leaves_attempt {a : Attempted} (h : Course (attempt c s scope p) events a) :
    ∃ versions, Leaves p 1 events a versions :=
  leaves_attemptFrom h

end Conveyor.Run
