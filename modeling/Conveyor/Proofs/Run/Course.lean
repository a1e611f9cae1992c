import Conveyor.Run.World

/-!
# Courses of activities

A course is one way in which an activity can go: what it asks for, in order, each with the reply it
gets, and its result. Nothing is assumed of the replies, so what holds of every course holds
whatever the clock, the adapter and the log do. Carrying an activity out at one go takes one of its
courses (`course_events`).
-/

namespace Conveyor.Activity

variable {α β σ τ : Type}

/-- Something that was asked for, and the reply. -/
structure Event where
  ask : Ask
  reply : ask.Reply

/-- The activity can ask for just these things, be given these replies, and end with the result. -/
inductive Course : Activity α → List Event → α → Prop where
  | done (a : α) : Course (.done a) [] a
  | ask {q : Ask} {next : q.Reply → Activity α} {events : List Event} {a : α} (r : q.Reply)
      (rest : Course (next r) events a) : Course (.ask q next) (⟨q, r⟩ :: events) a

theorem course_done_iff {a b : α} {events : List Event} :
    Course (.done a) events b ↔ events = [] ∧ b = a := by
  constructor
  · intro h
    cases h
    exact ⟨rfl, rfl⟩
  · rintro ⟨rfl, rfl⟩
    exact .done b

theorem course_pure_iff {a b : α} {events : List Event} :
    Course (pure a) events b ↔ events = [] ∧ b = a := course_done_iff

theorem course_request_iff {q : Ask} {events : List Event} {r : q.Reply} :
    Course (request q) events r ↔ events = [⟨q, r⟩] := by
  constructor
  · intro h
    cases h with
    | ask r rest =>
      obtain ⟨rfl, rfl⟩ := course_done_iff.mp rest
      rfl
  · rintro rfl
    exact .ask r (.done r)

theorem Course.bind {t : Activity α} {f : α → Activity β} {before after : List Event} {a : α}
    {b : β} (first : Course t before a) (rest : Course (f a) after b) :
    Course (t >>= f) (before ++ after) b := by
  induction first with
  | done a => exact rest
  | ask r _ ih => exact .ask r (ih rest)

/-- A course of a sequence is a course of its first part, followed by one of the rest. -/
theorem course_bind_iff {t : Activity α} {f : α → Activity β} {events : List Event} {b : β} :
    Course (t >>= f) events b ↔
      ∃ before after a, events = before ++ after ∧ Course t before a ∧ Course (f a) after b := by
  constructor
  · intro h
    induction t generalizing events with
    | done a => exact ⟨[], events, a, rfl, .done a, h⟩
    | ask q next ih =>
      cases h with
      | ask r rest =>
        obtain ⟨before, after, a, rfl, first, last⟩ := ih r rest
        exact ⟨⟨q, r⟩ :: before, after, a, rfl, .ask r first, last⟩
  · rintro ⟨before, after, a, rfl, first, rest⟩
    exact first.bind rest

/-- A request at the head of a sequence takes one event. -/
theorem course_request_bind_iff {q : Ask} {f : q.Reply → Activity β} {events : List Event}
    {b : β} :
    Course (request q >>= f) events b ↔
      ∃ r after, events = ⟨q, r⟩ :: after ∧ Course (f r) after b := by
  rw [course_bind_iff]
  constructor
  · rintro ⟨before, after, r, rfl, first, rest⟩
    obtain rfl := course_request_iff.mp first
    exact ⟨r, after, rfl, rest⟩
  · rintro ⟨r, after, rfl, rest⟩
    exact ⟨[⟨q, r⟩], after, r, rfl, course_request_iff.mpr rfl, rest⟩

/-- The events of an activity that is carried out at one go. -/
def events (s : Surroundings σ) : Activity α → σ → List Event
  | .done _, _ => []
  | .ask q next, st => ⟨q, (s q st).1⟩ :: events s (next (s q st).1) (s q st).2

theorem course_events (s : Surroundings σ) (t : Activity α) (st : σ) :
    Course t (events s t st) (carryOut s t st).1 := by
  induction t generalizing st with
  | done a => exact .done a
  | ask q next ih => exact .ask _ (ih _ _)

/-- An activity that can go as another one did in some surroundings does go so there. -/
theorem carryOut_of_course {s : Surroundings σ} {t t' : Activity α} {st : σ}
    (h : Course t' (events s t st) (carryOut s t st).1) :
    carryOut s t' st = carryOut s t st ∧ events s t' st = events s t st := by
  induction t generalizing t' st with
  | done a =>
    cases h
    exact ⟨rfl, rfl⟩
  | ask q next ih =>
    cases h with
    | ask r rest =>
      obtain ⟨hcarryOut, hevents⟩ := ih _ rest
      refine ⟨hcarryOut, ?_⟩
      rw [events, events, hevents]

theorem carryOut_bind (s : Surroundings σ) (t : Activity α) (f : α → Activity β) (st : σ) :
    carryOut s (t >>= f) st = carryOut s (f (carryOut s t st).1) (carryOut s t st).2 := by
  induction t generalizing st with
  | done a => rfl
  | ask q next ih => exact ih (s q st).1 (s q st).2

theorem events_bind (s : Surroundings σ) (t : Activity α) (f : α → Activity β) (st : σ) :
    events s (t >>= f) st =
      events s t st ++ events s (f (carryOut s t st).1) (carryOut s t st).2 := by
  induction t generalizing st with
  | done a => rfl
  | ask q next ih => exact congrArg (⟨q, (s q st).1⟩ :: ·) (ih (s q st).1 (s q st).2)

/-- Surroundings in which every call gets the same answer. -/
def answering (answer : Answer) : Surroundings Unit
  | .now, st => (⟨0, none⟩, st)
  | .drawId, st => ("id", st)
  | .draw, st => (.least, st)
  | .call .., st => (some answer, st)
  | .append _, st | .update _, st | .discard _, st | .turn _, st | .wait _, st => ((), st)

/-! ## What a course does to the log -/

/-- A change of the log. -/
inductive LogOp where
  | append (e : LogEntry)
  | update (e : LogEntry)
  | discard (id : String)

/-- The log after a change. -/
def LogOp.apply (l : MemoryLog) : LogOp → MemoryLog
  | .append e => l.append e
  | .update e => l.update e
  | .discard id => l.delete id

def Event.logOp? (e : Event) : Option LogOp :=
  match e.ask with
  | .append entry => some (.append entry)
  | .update entry => some (.update entry)
  | .discard id => some (.discard id)
  | _ => none

/-- The changes of the log in a course, in order. -/
def logOps (events : List Event) : List LogOp := events.filterMap Event.logOp?

@[simp] theorem logOps_nil : logOps [] = [] := rfl

@[simp] theorem logOps_append (es fs : List Event) : logOps (es ++ fs) = logOps es ++ logOps fs :=
  List.filterMap_append

/-- The id that was drawn. -/
def Event.drawnId? : Event → Option String
  | ⟨.drawId, id⟩ => some id
  | _ => none

/-- The ids that are drawn in a course, in order. -/
def drawnIds (events : List Event) : List String := events.filterMap Event.drawnId?

@[simp] theorem drawnIds_append (es fs : List Event) :
    drawnIds (es ++ fs) = drawnIds es ++ drawnIds fs :=
  List.filterMap_append

end Conveyor.Activity

/-! ## Courses in memory -/

namespace Conveyor.World

open Activity

variable {α σ τ : Type}

@[simp] theorem pass_log (seconds : Binary64) (w : World σ) : (w.pass seconds).log = w.log := by
  unfold pass
  split <;> rfl

@[simp] theorem pass_drawn (seconds : Binary64) (w : World σ) :
    (w.pass seconds).drawn = w.drawn := by
  unfold pass
  split <;> rfl

@[simp] theorem passLimit_log (limit : Binary64) (w : World σ) :
    (w.passLimit limit).log = w.log := by
  unfold passLimit
  split <;> simp

@[simp] theorem passLimit_drawn (limit : Binary64) (w : World σ) :
    (w.passLimit limit).drawn = w.drawn := by
  unfold passLimit
  split <;> simp

@[simp] theorem callWithin_log (a : Adapter τ σ) (limit : Binary64) (ref : DestinationRef)
    (r : Request) (w : World σ) : (w.callWithin a limit ref r).2.log = w.log := by
  simp only [callWithin]
  split <;> simp [fetch, call]

@[simp] theorem callWithin_drawn (a : Adapter τ σ) (limit : Binary64) (ref : DestinationRef)
    (r : Request) (w : World σ) : (w.callWithin a limit ref r).2.drawn = w.drawn := by
  simp only [callWithin]
  split <;> simp [fetch, call]

/-- Only changes of the log change the log. -/
theorem log_reply (a : Adapter τ σ) (q : Ask) (w : World σ) :
    (reply a q w).2.log = (logOps [⟨q, (reply a q w).1⟩]).foldl LogOp.apply w.log := by
  cases q with
  | call limit ref r => exact callWithin_log a limit ref r w
  | wait seconds => exact pass_log seconds w
  | _ => rfl

/-- The log after an activity is the log before with the activity's changes made in order. -/
theorem log_carryOut (a : Adapter τ σ) (t : Activity α) (w : World σ) :
    (w.carryOut a t).2.log = (logOps (events (reply a) t w)).foldl LogOp.apply w.log := by
  induction t generalizing w with
  | done b => rfl
  | ask q next ih =>
    show ((reply a q w).2.carryOut a (next (reply a q w).1)).2.log = _
    rw [ih, log_reply a q w, ← List.foldl_append, ← logOps_append]
    rfl

/-- Ids are drawn by number, without a gap. -/
theorem drawnIds_events (a : Adapter τ σ) (t : Activity α) (w : World σ) :
    ∃ n, drawnIds (events (reply a) t w) =
      (List.range' (w.drawn + 1) n).map idText := by
  induction t generalizing w with
  | done b => exact ⟨0, rfl⟩
  | ask q next ih =>
    obtain ⟨n, hn⟩ := ih (reply a q w).1 (reply a q w).2
    cases q with
    | drawId =>
      refine ⟨n + 1, ?_⟩
      rw [List.range'_succ, List.map_cons]
      exact congrArg (idText (w.drawn + 1) :: ·) hn
    | call limit ref r =>
      refine ⟨n, ?_⟩
      rw [← callWithin_drawn a limit ref r w]
      exact hn
    | wait seconds =>
      refine ⟨n, ?_⟩
      rw [← pass_drawn seconds w]
      exact hn
    | _ => exact ⟨n, hn⟩

/-- How many ids have been drawn after an activity. -/
theorem drawn_carryOut (a : Adapter τ σ) (t : Activity α) (w : World σ) :
    (w.carryOut a t).2.drawn = w.drawn + (drawnIds (events (reply a) t w)).length := by
  induction t generalizing w with
  | done b => rfl
  | ask q next ih =>
    show ((reply a q w).2.carryOut a (next (reply a q w).1)).2.drawn = _
    rw [ih]
    cases q with
    | drawId =>
      show w.drawn + 1 + _ = w.drawn + (_ + 1)
      rw [Nat.add_assoc, Nat.add_comm 1]
      rfl
    | call limit ref r => exact congrArg (· + _) (callWithin_drawn a limit ref r w)
    | wait seconds => exact congrArg (· + _) (pass_drawn seconds w)
    | _ => rfl

end Conveyor.World
