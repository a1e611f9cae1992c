import Conveyor.Destination.Recording
import Conveyor.Proofs.Binary64.Sum
import Conveyor.Proofs.Run.Following

/-!
# Destinations that reply the same at all times

If the answer to a call, and how long it takes, depend on nothing but the destination and the request,
then so does what a run gets for a call, as long as it is clear whether the answer comes before the
time of the step is over. What an activity may end with is then given by these replies alone.
-/

namespace Conveyor

variable {α β σ τ : Type}

/-- Answers to calls, and the seconds that they take; none if an answer is there at once. -/
structure Replies where
  latency : DestinationRef → Request → Option Binary64
  answer : DestinationRef → Request → Answer

namespace Replies

/-- What a call within a limit of seconds comes to. -/
def within (m : Replies) (limit : Binary64) (ref : DestinationRef) (request : Request) :
    Option Answer :=
  match m.latency ref request with
  | none => some (m.answer ref request)
  | some seconds =>
    if seconds.le .zero || seconds.lt limit then some (m.answer ref request) else none

/-- The replies that a request can get while the clock stands. What is asked for without any time is
left open. -/
def Allows (m : Replies) (now : Moment) : (q : Ask) → q.Reply → Prop
  | .now, t => t = now
  | .call limit ref request, answer =>
    limit.le .zero = false → answer = m.within limit ref request
  | .drawId, _ | .draw, _ | .append _, _ | .update _, _ | .discard _, _ | .turn _, _
  | .wait _, _ => True

end Replies

/-- From some states on, the destinations give these replies, whatever calls they get. -/
structure Adapter.Gives (a : Adapter τ σ) (m : Replies) (P : σ → Prop) : Prop where
  called : ∀ {d}, P d → ∀ ref request, P (a.call ref request d).2
  fetched : ∀ {d}, P d → ∀ pending, P (a.fetch pending d).2
  latency : ∀ {d}, P d → ∀ ref request, (a.call ref request d).1.1 = m.latency ref request
  answer : ∀ {d d'}, P d → P d' → ∀ ref request,
    (a.fetch (a.call ref request d).1.2 d').1 = m.answer ref request

namespace Activity

variable {m : Replies} {now now' : Moment}

/-- The activity can end with a result, if it gets no replies but those. -/
inductive Ends (m : Replies) (now : Moment) : Activity α → α → Prop where
  | done (a : α) : Ends m now (.done a) a
  | ask {q : Ask} {next : q.Reply → Activity α} {a : α} (r : q.Reply) (allowed : m.Allows now q r)
      (rest : Ends m now (next r) a) : Ends m now (.ask q next) a

theorem ends_bind_iff {t : Activity α} {f : α → Activity β} {b : β} :
    Ends m now (t >>= f) b ↔ ∃ a, Ends m now t a ∧ Ends m now (f a) b := by
  constructor
  · intro h
    induction t with
    | done a => exact ⟨a, .done a, h⟩
    | ask q next ih =>
      cases h with
      | ask r allowed rest =>
        obtain ⟨a, first, last⟩ := ih r rest
        exact ⟨a, .ask r allowed first, last⟩
  · rintro ⟨a, first, last⟩
    induction first with
    | done a => exact last
    | ask r allowed _ ih => exact .ask r allowed (ih last)

/-- What an activity can end with by these replies, it can end with. -/
theorem Ends.exists_course {t : Activity α} {a : α} (h : Ends m now t a) :
    ∃ events, Course t events a ∧ ∀ moment, ⟨.now, moment⟩ ∈ events → moment = now := by
  induction h with
  | done a => exact ⟨[], .done a, nofun⟩
  | @ask q next a r allowed _ ih =>
    obtain ⟨events, course, clock⟩ := ih
    refine ⟨⟨q, r⟩ :: events, .ask r course, fun moment hmem => ?_⟩
    rcases List.mem_cons.mp hmem with heq | hmem
    · injection heq with hask hreply
      subst hask
      obtain rfl := eq_of_heq hreply
      exact allowed
    · exact clock moment hmem

/-- What an activity can end with from where it has stopped. -/
inductive Halted (m : Replies) (now : Moment) : Halt α → α → Prop where
  | ended (b : α) : Halted m now (.ended b) b
  | turn {limit : Binary64} {next : Activity α} {b : α} (rest : next.Ends m now b) :
      Halted m now (.turn limit next) b
  | call {limit : Binary64} {ref : DestinationRef} {request : Request}
      {next : Option Answer → Activity α} {b : α} (answer : Option Answer)
      (allowed : m.Allows now (.call limit ref request) answer) (rest : (next answer).Ends m now b) :
      Halted m now (.call limit ref request next) b
  | wait {seconds : Binary64} {next : Activity α} {b : α} (rest : next.Ends m now b) :
      Halted m now (.wait seconds next) b

/-! ## Activities that agree -/

/-- With these replies, whatever the clock shows and whatever ids are drawn, two activities end with
results that are related. -/
def Agree (m : Replies) (now now' : Moment) (R : α → β → Prop) (t : Activity α) (t' : Activity β) :
    Prop :=
  ∀ a b, Ends m now t a → Ends m now' t' b → R a b

variable {γ δ : Type} {R : α → β → Prop} {S : γ → δ → Prop} {t : Activity α} {t' : Activity β}

theorem agree_pure {a : α} {b : β} (related : R a b) :
    Agree m now now' R (pure a : Activity α) (pure b : Activity β) := by
  intro x y hx hy
  cases hx
  cases hy
  exact related

theorem Agree.bind {f : α → Activity γ} {g : β → Activity δ} (h : Agree m now now' R t t')
    (rest : ∀ a b, R a b → Agree m now now' S (f a) (g b)) :
    Agree m now now' S (t >>= f) (t' >>= g) := by
  intro c d hc hd
  obtain ⟨a, ha, hc⟩ := ends_bind_iff.mp hc
  obtain ⟨b, hb, hd⟩ := ends_bind_iff.mp hd
  exact rest a b (h a b ha hb) c d hc hd

/-- Requests at the head of two activities. -/
theorem agree_request_bind (q q' : Ask) {f : q.Reply → Activity γ} {g : q'.Reply → Activity δ}
    (rest : ∀ r r', m.Allows now q r → m.Allows now' q' r' → Agree m now now' S (f r) (g r')) :
    Agree m now now' S (request q >>= f) (request q' >>= g) := by
  intro c d hc hd
  cases hc with
  | ask r allowed hc =>
    cases hd with
    | ask r' allowed' hd => exact rest r r' allowed allowed' c d hc hd

end Activity

/-! ## Activities that are carried out at one go -/

namespace World

variable {m : Replies} {P : σ → Prop} {w : World σ}

/-- If the request is a call, its limit is not reached in the present moment, nor does its answer come
at the very time at which its limit is reached. What is answered at once is answered in time. -/
def TellsApart (a : Adapter τ σ) (w : World σ) : Ask → Prop
  | .call limit ref request =>
    match (w.call a ref request).1.1 with
    | none => True
    | some seconds =>
      seconds.le .zero = true ∨ w.isAtOnce limit = false ∧
        ((w.timer.add seconds).lt (w.timer.add limit) = true ∨
          (w.timer.add limit).lt (w.timer.add seconds) = true)
  | _ => True

/-- Of every call that the activity makes it can be told whether it is answered in time. -/
def Decides (a : Adapter τ σ) : Activity α → World σ → Prop
  | .done _, _ => True
  | .ask q next, w =>
    w.TellsApart a q ∧ Decides a (next (reply a q w).1) (reply a q w).2

instance (a : Adapter τ σ) (w : World σ) (q : Ask) : Decidable (w.TellsApart a q) := by
  unfold TellsApart
  split
  · split <;> infer_instance
  · infer_instance

instance decidableDecides (a : Adapter τ σ) :
    (t : Activity α) → (w : World σ) → Decidable (w.Decides a t)
  | .done _, _ => .isTrue trivial
  | .ask q next, w =>
    have := decidableDecides a (next (reply a q w).1) (reply a q w).2
    inferInstanceAs (Decidable (w.TellsApart a q ∧ Decides a (next (reply a q w).1) (reply a q w).2))

@[simp] theorem pass_destinations (seconds : Binary64) (w : World σ) :
    (w.pass seconds).destinations = w.destinations := by
  unfold pass
  split <;> rfl

@[simp] theorem passLimit_destinations (limit : Binary64) (w : World σ) :
    (w.passLimit limit).destinations = w.destinations := by
  unfold passLimit
  split <;> simp

/-- A call that is not given up is answered. -/
theorem callWithin_of_inTime {a : Adapter τ σ} (gives : a.Gives m P) (here : P w.destinations)
    {limit : Binary64} {ref : DestinationRef} {request : Request}
    (inTime : (w.call a ref request).2.isLate limit ((w.call a ref request).1.1.getD .zero) = false) :
    (w.callWithin a limit ref request).1 = some (m.answer ref request) := by
  unfold callWithin
  simp only [inTime, Bool.false_eq_true, if_false]
  refine congrArg some (gives.answer here ?_ ref request)
  rw [pass_destinations]
  exact gives.called here ref request

/-- Whether an answer comes in time does not depend on what the timer shows. -/
theorem callWithin_eq {a : Adapter τ σ} (gives : a.Gives m P) (here : P w.destinations)
    {limit : Binary64} {ref : DestinationRef} {request : Request}
    (apart : w.TellsApart a (.call limit ref request)) :
    (w.callWithin a limit ref request).1 = m.within limit ref request := by
  have hlatency : (w.call a ref request).1.1 = m.latency ref request :=
    gives.latency here ref request
  unfold TellsApart at apart
  unfold Replies.within
  rw [← hlatency]
  cases hseconds : (w.call a ref request).1.1 with
  | none =>
    refine callWithin_of_inTime gives here ?_
    rw [hseconds, Option.getD_none, isLate, Binary64.lt_irrefl, Bool.false_and]
  | some seconds =>
    simp only [hseconds] at apart
    have hlate : (w.call a ref request).2.isLate limit ((w.call a ref request).1.1.getD .zero) =
        (Binary64.zero.lt seconds &&
          (w.isAtOnce limit || !(w.timer.add seconds).lt (w.timer.add limit))) := by
      rw [hseconds]
      rfl
    simp only
    by_cases hpositive : seconds.le .zero = true
    · rw [hpositive, Bool.true_or, if_pos rfl]
      refine callWithin_of_inTime gives here ?_
      have hnot : Binary64.zero.lt seconds = false := by
        obtain ⟨hseconds, hzero⟩ := Binary64.isNan_of_le hpositive
        rw [← Bool.not_eq_true, Binary64.lt_iff_not_le hseconds hzero, hpositive]
        exact Bool.noConfusion
      rw [hlate, hnot, Bool.false_and]
    · rw [Bool.eq_false_iff.mpr hpositive, Bool.false_or]
      obtain ⟨honce, hbefore | hafter⟩ := apart.resolve_left hpositive
      · rw [Binary64.lt_of_add_lt_add hbefore, if_pos rfl]
        refine callWithin_of_inTime gives here ?_
        rw [hlate, honce, hbefore]
        exact Bool.and_false _
      · have hlimit := Binary64.lt_of_add_lt_add hafter
        rw [Binary64.lt_asymm hlimit, if_neg Bool.false_ne_true]
        have hpositive' : Binary64.zero.lt seconds = true :=
          (Binary64.lt_iff_not_le (Binary64.isNan_of_lt hlimit).2 rfl).mpr
            (Bool.eq_false_iff.mpr hpositive)
        have hlate' : (w.call a ref request).2.isLate limit
            ((w.call a ref request).1.1.getD .zero) = true := by
          rw [hlate, honce, hpositive', Binary64.lt_asymm hafter]
          rfl
        unfold callWithin
        simp only [hlate', if_true]

theorem gives_reply {a : Adapter τ σ} (gives : a.Gives m P) (here : P w.destinations) (q : Ask) :
    P (reply a q w).2.destinations := by
  cases q with
  | call limit ref request =>
    have hcalled := gives.called here ref request
    simp only [reply, callWithin]
    split
    · rw [passLimit_destinations]
      exact hcalled
    · refine gives.fetched ?_ _
      rw [pass_destinations]
      exact hcalled
  | wait seconds =>
    show P (w.pass seconds).destinations
    rw [pass_destinations]
    exact here
  | _ => exact here

/-- An activity that is carried out at one go gets the replies of its destinations. -/
theorem ends_carryOut {a : Adapter τ σ} (gives : a.Gives m P) (t : Activity α)
    (here : P w.destinations) (decides : w.Decides a t) :
    t.Ends m w.now (w.carryOut a t).1 := by
  induction t generalizing w with
  | done b => exact .done b
  | ask q next ih =>
    obtain ⟨apart, rest⟩ := decides
    have hrest := ih _ (gives_reply gives here q) rest
    rw [(follows_reply a q w).now] at hrest
    refine .ask _ ?_ hrest
    cases q with
    | now => exact rfl
    | call limit ref request => exact fun _ => callWithin_eq gives here apart
    | drawId | draw | append | update | discard | turn | wait => exact trivial

/-! ## Activities that stop to let others go first -/

/-- Until it stops, an activity gets replies at once, and the clock stands. -/
theorem ends_of_halted (a : Adapter τ σ) (t : Activity α) {b : α}
    (h : Activity.Halted m w.now (t.advance (reply a) w).1 b) : t.Ends m w.now b := by
  induction t generalizing w with
  | done b' =>
    cases h
    exact .done b
  | ask q next ih =>
    cases q with
    | turn limit =>
      cases h with
      | turn rest => exact .ask () trivial rest
    | wait seconds =>
      cases h with
      | wait rest => exact .ask () trivial rest
    | call limit ref request =>
      cases h with
      | call answer allowed rest => exact .ask answer allowed rest
    | now => exact .ask w.now rfl (ih w.now h)
    | drawId => exact .ask _ trivial (ih (w := w.drawId.2) _ h)
    | draw => exact .ask _ trivial (ih (w := w.draw.2) _ h)
    | append e => exact .ask () trivial (ih (w := { w with log := w.log.append e }) () h)
    | update e => exact .ask () trivial (ih (w := { w with log := w.log.update e }) () h)
    | discard id => exact .ask () trivial (ih (w := { w with log := w.log.delete id }) () h)

end World

/-! ## Recording destinations -/

namespace Recording

/-- What destinations without prepared answers and failures reply. -/
def replies (d : Recording) : Replies where
  latency _ _ := d.delay
  answer ref request :=
    .result (success ((d.responses.get? ref.text).getD .null) (Request.isRest request))

/-- Destinations without prepared answers and failures that reply like others. -/
structure Repeats (d d' : Recording) : Prop where
  prepared : d'.prepared = []
  failures : d'.failures = []
  responses : d'.responses = d.responses
  delay : d'.delay = d.delay

theorem gives_replies (d : Recording) : adapter.Gives d.replies d.Repeats := by
  have hcall : ∀ {d'}, d.Repeats d' → ∀ ref request, adapter.call ref request d' =
      ((d'.delay, .unprepared ref (Request.isRest request)),
        { d' with calls := d'.calls ++ [(ref, request)] }) := by
    intro d' h ref request
    simp [adapter, call, h.prepared, Keyed.get?]
  have hfetch : ∀ {d'}, d.Repeats d' → ∀ ref isRest, adapter.fetch (.unprepared ref isRest) d' =
      (.result (success ((d'.responses.get? ref.text).getD .null) isRest), d') := by
    intro d' h ref isRest
    simp [adapter, fetch, h.failures, Keyed.get?]
  refine ⟨fun h ref request => ?_, fun h pending => ?_, fun h ref request => ?_,
    fun h h' ref request => ?_⟩
  · rw [hcall h]
    exact ⟨h.prepared, h.failures, h.responses, h.delay⟩
  · cases pending with
    | prepared answer => exact h
    | unprepared ref isRest =>
      rw [hfetch h]
      exact h
  · rw [hcall h]
    exact h.delay
  · rw [hcall h, hfetch h', h'.responses]
    rfl

end Recording
end Conveyor
