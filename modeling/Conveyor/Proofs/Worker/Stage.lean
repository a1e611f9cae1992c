import Conveyor.Proofs.Worker.View

/-!
# The stages of a step

Where a step stands is told by how far its work has come, the turns the run waits for and its alarms.
However turns and alarms of several runs are interleaved, the work of a step is given up if and only
if the time of the step is over before the answer is there. It has to be clear which of the two alarms
comes first, and no step may be out of time in the very moment in which it begins.
-/

namespace Conveyor.Worker

open Activity

variable {τ σ : Type}

/-! ## Steps that can be told to end in time or not -/

/-- The time of a step is not over in the moment in which it begins, nor at the very time at which its
answer comes. -/
def Stint.Decisive (s : Scene σ) (st : Stint τ) : Prop :=
  match st.limit, st.work with
  | some number, .fresh _ =>
    ∀ x ∈ s.alarms.heap, x.number = number →
      (s.world.timer.add World.moment).le x.wake = true
  | some number, .resting alarm _ =>
    ∀ x ∈ s.alarms.heap, ∀ y ∈ s.alarms.heap, x.number = alarm → y.number = number →
      x.wake.lt y.wake = true ∨ y.wake.lt x.wake = true
  | _, _ => True

instance (s : Scene σ) (st : Stint τ) : Decidable (st.Decisive s) := by
  unfold Stint.Decisive
  split
  · infer_instance
  · infer_instance
  · infer_instance

/-- The time of a step that begins. -/
theorem Stint.Decisive.later {s : Scene σ} {call : Option (DestinationRef × Request)} {number : Nat}
    (h : ({ work := .fresh call, limit := some number } : Stint τ).Decisive s)
    {id : LaneId} {b : Bell} (hb : b ∈ s.bells id) (mine : b.number = number) :
    (s.world.timer.add World.moment).le b.wake = true := by
  obtain ⟨x, hx, -, hwake, hnumber⟩ := Scene.mem_bells hb
  rw [← hwake]
  exact h x (Alarms.mem_heap_of_mem_active hx) (hnumber.trans mine)

/-- The time of a step that waits for an answer. -/
theorem Stint.Decisive.apart {s : Scene σ} {alarm number : Nat} {pending : τ}
    (h : ({ work := .resting alarm pending, limit := some number } : Stint τ).Decisive s)
    {id : LaneId} {b c : Bell} (hb : b ∈ s.bells id) (there : b.number = alarm) (hc : c ∈ s.bells id)
    (mine : c.number = number) : b.wake.lt c.wake = true ∨ c.wake.lt b.wake = true := by
  obtain ⟨x, hx, -, hwake, hnumber⟩ := Scene.mem_bells hb
  obtain ⟨y, hy, -, hwake', hnumber'⟩ := Scene.mem_bells hc
  rw [← hwake, ← hwake']
  exact h x (Alarms.mem_heap_of_mem_active hx) y (Alarms.mem_heap_of_mem_active hy)
    (hnumber.trans there) (hnumber'.trans mine)

/-! ## The stages of a step -/

/-- An alarm of a run has not gone off, or it has called for its turn. -/
inductive Alarmed (cue : Cue) (number : Nat) : List Cue → Multiset Bell → Prop where
  | waits (wake : Binary64) : Alarmed cue number [] {⟨wake, number, cue⟩}
  | rings : Alarmed cue number [cue] 0

/-- The alarms do not go off in the present moment. -/
def Later (timer : Binary64) (bells : Multiset Bell) : Prop :=
  ∀ b ∈ bells, (timer.add World.moment).le b.wake = true

theorem later_zero (timer : Binary64) : Later timer 0 := fun _ h => absurd h (Multiset.notMem_zero _)

section stages

variable (a : Adapter τ σ) (m : Replies) (P : σ → Prop) (ok : Option Answer → Prop)

/-- Whenever the answer is fetched, it is one that the step may end with. -/
def Answers (pending : τ) : Prop := ∀ d, P d → ok (some (a.fetch pending d).1)

/-- The stages of a step, with the turns and alarms of its run. The step may end with the answers that
are `ok`. -/
inductive Stint.Stage (timer : Binary64) : Stint τ → List Cue → Multiset Bell → Prop where
  /-- The work is about to begin, with time left. -/
  | fresh {call : Option (DestinationRef × Request)} {number : Nat} (limit : Binary64)
      (time : limit.le .zero = false) (idle : call = none → ok none)
      (calls : ∀ ref request, call = some (ref, request) → ok (m.within limit ref request))
      (later : Later timer {⟨timer.add limit, number, .limit⟩}) :
      Stage timer { work := .fresh call, limit := some number } [.work]
        {⟨timer.add limit, number, .limit⟩}
  /-- Nothing happens until the answer is there or the time is over. -/
  | resting {alarm number : Nat} {pending : τ} {there expiry : Binary64}
      (apart : there.lt expiry = true ∨ expiry.lt there = true)
      (inTime : there.lt expiry = true → Answers a P ok pending)
      (late : expiry.lt there = true → ok none) :
      Stage timer { work := .resting alarm pending, limit := some number } []
        {⟨there, alarm, .rested⟩, ⟨expiry, number, .limit⟩}
  /-- The answer is there in time. -/
  | rested {alarm number : Nat} {pending : τ} {cues : List Cue} {bells : Multiset Bell}
      (alarmed : Alarmed .limit number cues bells) (answers : Answers a P ok pending)
      (later : Later timer bells) :
      Stage timer { work := .resting alarm pending, limit := some number } (.rested :: cues) bells
  /-- The answer is about to be fetched. -/
  | due {number : Nat} {pending : τ} {cues : List Cue} {bells : Multiset Bell}
      (alarmed : Alarmed .limit number cues bells) (answers : Answers a P ok pending)
      (later : Later timer bells) :
      Stage timer { work := .due pending, limit := some number } (cues ++ [.work]) bells
  /-- The answer is about to be fetched before the run looks at the work. -/
  | dueNoticed {number : Nat} {pending : τ} (answers : Answers a P ok pending) :
      Stage timer { work := .due pending, limit := some number, isNoticed := true } [.work, .goOn] 0
  /-- The time is over before the answer is there. -/
  | late {alarm number : Nat} {pending : τ} {cues : List Cue} {bells : Multiset Bell}
      (alarmed : Alarmed .rested alarm cues bells) (none_ : ok none) (later : Later timer bells) :
      Stage timer { work := .resting alarm pending, limit := some number } (.limit :: cues) bells
  | lateNoticed {alarm number : Nat} {pending : τ} {cues : List Cue} {bells : Multiset Bell}
      (alarmed : Alarmed .rested alarm cues bells) (none_ : ok none) (later : Later timer bells) :
      Stage timer { work := .resting alarm pending, limit := some number, isNoticed := true }
        (cues ++ [.goOn]) bells
  /-- The run is about to look at the work, before an answer that is late would be fetched. -/
  | lateDue {number : Nat} {pending : τ} (none_ : ok none) :
      Stage timer { work := .due pending, limit := some number, isNoticed := true } [.goOn, .work] 0
  /-- The work has been given up. -/
  | yields {work : Work τ} {limit : Option Nat} {bells : Multiset Bell}
      (rests : ∀ b ∈ bells, ∃ pending, work = .resting b.number pending) (none_ : ok none)
      (later : Later timer bells) :
      Stage timer { work, limit, isGivenUp := true } [.work] bells
  | ended {answer : Option Answer} {limit : Option Nat} {givenUp : Bool} {bells : Multiset Bell}
      (own : ∀ b ∈ bells, limit = some b.number) (answered : ok answer) (later : Later timer bells) :
      Stage timer { work := .ended answer, limit, isGivenUp := givenUp } [.report limit] bells
  /-- The run is about to look at work that has ended; it may do so before the report comes. -/
  | looks {answer : Option Answer} {limit : Option Nat} {givenUp : Bool} {cues : List Cue}
      {bells : Multiset Bell} (own : ∀ b ∈ bells, limit = some b.number) (answered : ok answer)
      (report : ∀ cue ∈ cues, ∃ number, limit = some number ∧ cue = .report (some number))
      (later : Later timer bells) :
      Stage timer { work := .ended answer, limit, isNoticed := true, isGivenUp := givenUp }
        (.goOn :: cues) bells

end stages

variable {a : Adapter τ σ} {m : Replies} {P : σ → Prop} {ok : Option Answer → Prop}
  {timer timer' : Binary64} {id : LaneId} {s s' : Scene σ} {st : Stint τ} {cue : Cue}
  {cues : List Cue} {bells : Multiset Bell}

/-- A run that waits for a turn has no alarm that goes off before. -/
theorem Stint.Stage.later (h : st.Stage a m P ok timer cues bells) (busy : cues ≠ []) :
    Later timer bells := by
  cases h with
  | resting => exact absurd rfl busy
  | dueNoticed | lateDue => exact later_zero timer
  | fresh _ _ _ _ later => exact later
  | rested _ _ later => exact later
  | due _ _ later => exact later
  | late _ _ later => exact later
  | lateNoticed _ _ later => exact later
  | yields _ _ later => exact later
  | ended _ _ later => exact later
  | looks _ _ _ later => exact later

namespace Lane

/-! ## Turns of a step -/

/-- The stage of a step on a scene. -/
def Stands (a : Adapter τ σ) (m : Replies) (P : σ → Prop) (ok : Option Answer → Prop) (id : LaneId)
    (r : Stint τ × Scene σ) : Prop :=
  r.1.Stage a m P ok r.2.world.timer (r.2.cues id) (r.2.bells id)

/-- Work that has ended is reported. If the run is about to look at it anyway, the report comes
later. -/
theorem stands_endWork {answer : Option Answer} (answered : ok answer)
    (own : ∀ b ∈ s.bells id, st.limit = some b.number) (later : Later s.world.timer (s.bells id))
    (unseen : st.isNoticed = false ∧ s.cues id = [] ∨
      st.isNoticed = true ∧ s.cues id = [.goOn] ∧ st.limit.isSome = true) :
    Stands a m P ok id (endWork id answer st s) := by
  obtain ⟨work, limit, noticed, givenUp⟩ := st
  unfold Stands endWork
  simp only [Scene.cues_callFor_own, Scene.bells_callFor]
  rcases unseen with ⟨hnoticed, hcues⟩ | ⟨hnoticed, hcues, hlimit⟩
  · obtain rfl : noticed = false := hnoticed
    rw [hcues]
    exact .ended own answered later
  · obtain rfl : noticed = true := hnoticed
    obtain ⟨number, rfl⟩ := Option.isSome_iff_exists.mp hlimit
    rw [hcues]
    refine .looks own answered (fun cue hcue => ⟨number, rfl, ?_⟩) later
    exact List.mem_singleton.mp hcue

theorem stands_fetchAnswer (here : P s.world.destinations) {pending : τ}
    (answers : Answers a P ok pending) (own : ∀ b ∈ s.bells id, st.limit = some b.number)
    (later : Later s.world.timer (s.bells id))
    (unseen : st.isNoticed = false ∧ s.cues id = [] ∨
      st.isNoticed = true ∧ s.cues id = [.goOn] ∧ st.limit.isSome = true) :
    Stands a m P ok id (fetchAnswer a id pending st s) :=
  stands_endWork (s := { s with world := (s.world.fetch a pending).2 }) (answers _ here) own later
    unseen

/-- The answer of a call, whenever it is fetched. -/
theorem answers_call (gives : a.Gives m P) (here : P s.world.destinations) {ref : DestinationRef}
    {request : Request} (answered : ok (some (m.answer ref request))) :
    Answers a P ok (s.world.call a ref request).1.2 := by
  intro d hd
  have hanswer := gives.answer here hd ref request
  rw [← hanswer] at answered
  exact answered

/-- The work rests until the answer is there, in time or not. -/
theorem stands_rest {limit seconds : Binary64} {number alarm : Nat} {pending : τ} {answer : Answer}
    (rests : s.setAlarm seconds (.lane id .rested) = (alarm, s'))
    (answers : ok (some answer) → Answers a P ok pending)
    (answered : ok (if seconds.lt limit then some answer else none)) (quiet : s.cues id = [])
    (set : s.bells id = {⟨s.world.timer.add limit, number, .limit⟩})
    (decisive : ({ work := .resting alarm pending, limit := some number } : Stint τ).Decisive s') :
    Stands a m P ok id ({ work := .resting alarm pending, limit := some number }, s') := by
  have hbells := Scene.bells_setAlarm_own id seconds .rested s
  have hcues := Scene.cues_setAlarm id seconds (.lane id .rested) s
  obtain rfl : s.alarms.count = alarm := congrArg Prod.fst rests
  rw [rests, set] at hbells
  rw [rests, quiet] at hcues
  have hthere : ⟨s.world.timer.add seconds, s.alarms.count, .rested⟩ ∈ s'.bells id :=
    hbells ▸ Multiset.mem_cons_self _ _
  have hover : ⟨s.world.timer.add limit, number, .limit⟩ ∈ s'.bells id :=
    hbells ▸ Multiset.mem_cons_of_mem (Multiset.mem_singleton_self _)
  unfold Stands
  rw [hbells, hcues]
  refine .resting (decisive.apart hthere rfl hover rfl) (fun inTime => ?_) fun late => ?_
  · rw [if_pos (Binary64.lt_of_add_lt_add inTime)] at answered
    exact answers answered
  · rwa [Binary64.lt_asymm (Binary64.lt_of_add_lt_add late), if_neg Bool.false_ne_true] at answered

/-- The work begins. Whether its answer will be there in time is clear from how long it takes. -/
theorem stands_beginWork (gives : a.Gives m P) (here : P s.world.destinations)
    {call : Option (DestinationRef × Request)} {limit : Binary64} {number : Nat}
    (idle : call = none → ok none)
    (calls : ∀ ref request, call = some (ref, request) → ok (m.within limit ref request))
    (quiet : s.cues id = []) (set : s.bells id = {⟨s.world.timer.add limit, number, .limit⟩})
    (later : Later s.world.timer (s.bells id))
    (decisive : (beginWork a id call { work := .fresh call, limit := some number } s).1.Decisive
      (beginWork a id call { work := .fresh call, limit := some number } s).2) :
    Stands a m P ok id (beginWork a id call { work := .fresh call, limit := some number } s) := by
  have own : ∀ b ∈ s.bells id, some number = some b.number := by
    intro b hb
    rw [set, Multiset.mem_singleton] at hb
    rw [hb]
  cases call with
  | none => exact stands_endWork (idle rfl) own later (.inl ⟨rfl, quiet⟩)
  | some call =>
    obtain ⟨ref, request⟩ := call
    have hwithin := calls ref request rfl
    have hlatency : (s.world.call a ref request).1.1 = m.latency ref request :=
      gives.latency here ref request
    have hhere : P (s.world.call a ref request).2.destinations := gives.called here ref request
    unfold Replies.within at hwithin
    rw [← hlatency] at hwithin
    unfold beginWork at decisive ⊢
    simp only at decisive ⊢
    cases hseconds : (s.world.call a ref request).1.1 with
    | none =>
      rw [hseconds] at hwithin
      exact stands_fetchAnswer (s := { s with world := (s.world.call a ref request).2 }) hhere
        (answers_call gives here hwithin) own later (.inl ⟨rfl, quiet⟩)
    | some seconds =>
      rw [hseconds] at hwithin
      simp only [hseconds] at hwithin decisive ⊢
      cases hpositive : seconds.le .zero with
      | true =>
        rw [hpositive, Bool.true_or, if_pos rfl] at hwithin
        rw [if_pos rfl]
        have hcues : Scene.cues id { s with world := (s.world.call a ref request).2 } = [] := quiet
        have hbells : Scene.bells id { s with world := (s.world.call a ref request).2 } =
          {⟨s.world.timer.add limit, number, .limit⟩} := set
        unfold Stands
        simp only [Scene.cues_callFor_own, Scene.bells_callFor]
        rw [hcues, hbells]
        exact .due (.waits _) (answers_call gives here hwithin) (set ▸ later)
      | false =>
        rw [hpositive, Bool.false_or] at hwithin
        rw [hpositive, if_neg Bool.false_ne_true] at decisive
        rw [if_neg Bool.false_ne_true]
        exact stands_rest (s := { s with world := (s.world.call a ref request).2 }) rfl
          (answers_call gives here) hwithin quiet set decisive

/-- The run gets a turn to look at its step. -/
theorem stands_notice {work : Work τ} {limit : Option Nat} {givenUp : Bool}
    (h : ({ work, limit, isNoticed := true, isGivenUp := givenUp } : Stint τ).Stage a m P ok
      s.world.timer (s.cues id ++ [.goOn]) (s.bells id)) :
    Stands a m P ok id (notice id { work, limit, isGivenUp := givenUp } s) := by
  unfold Stands notice
  simp only [Bool.false_eq_true, if_false, Scene.cues_callFor_own, Scene.bells_callFor]
  exact h

theorem stands_endRest {number : Nat} {pending : τ} {limit : Option Nat} {noticed givenUp : Bool}
    (h : ({ work := .due pending, limit, isNoticed := noticed, isGivenUp := givenUp } :
      Stint τ).Stage a m P ok s.world.timer (s.cues id ++ [.work]) (s.bells id)) :
    Stands a m P ok id (endRest id
      { work := .resting number pending, limit, isNoticed := noticed, isGivenUp := givenUp } s) := by
  unfold Stands endRest
  simp only [Scene.cues_callFor_own, Scene.bells_callFor]
  exact h

/-- Work that has been given up ends without an answer. -/
theorem stands_giveUpWork {work : Work τ} {limit : Option Nat}
    (rests : ∀ b ∈ s.bells id, ∃ pending, work = .resting b.number pending) (none_ : ok none)
    (quiet : s.cues id = []) :
    Stands a m P ok id (doWork a id { work, limit, isGivenUp := true } s) := by
  have hended : ∀ s : Scene σ, s.cues id = [] → s.bells id = 0 →
      Stands a m P ok id (endWork id none { work, limit, isGivenUp := true } s) := by
    intro s hcues hbells
    refine stands_endWork none_ ?_ ?_ (.inl ⟨rfl, hcues⟩)
    · rw [hbells]
      exact fun _ h => absurd h (Multiset.notMem_zero _)
    · rw [hbells]
      exact later_zero _
  cases work with
  | resting number pending =>
    refine hended (s.callOff number) quiet ?_
    rw [Scene.bells_callOff, Multiset.filter_eq_nil]
    intro b hb hne
    obtain ⟨_, heq⟩ := rests b hb
    injection heq with hnumber
    exact hne hnumber.symm
  | fresh | due | ended =>
    refine hended s quiet (Multiset.eq_zero_of_forall_notMem fun b hb => ?_)
    obtain ⟨_, heq⟩ := rests b hb
    cases heq

/-- A turn of a step, other than that in which its run looks at the work. -/
theorem stands_stepTurn (gives : a.Gives m P) (here : P s.world.destinations)
    (h : st.Stage a m P ok s.world.timer (cue :: s.cues id) (s.bells id)) (works : cue ≠ .goOn)
    (decisive : (stepTurn a id st cue s).1.Decisive (stepTurn a id st cue s).2) :
    Stands a m P ok id (stepTurn a id st cue s) := by
  generalize hall : cue :: s.cues id = all at h
  generalize hbells : s.bells id = bells at h
  have hlater : Later s.world.timer (s.bells id) :=
    hbells ▸ h.later (hall ▸ List.cons_ne_nil _ _)
  cases h with
  | fresh limit time idle calls later =>
    obtain ⟨rfl, hcues⟩ := List.cons.inj hall
    exact stands_beginWork gives here idle calls hcues hbells hlater decisive
  | resting => cases hall
  | rested alarmed answers later =>
    obtain ⟨rfl, hcues⟩ := List.cons.inj hall
    refine stands_endRest ?_
    rw [hcues, hbells]
    exact .due alarmed answers later
  | due alarmed answers later =>
    cases alarmed with
    | waits =>
      obtain ⟨rfl, hcues⟩ := List.cons.inj hall
      refine stands_fetchAnswer here answers (fun b hb => ?_) hlater (.inl ⟨rfl, hcues⟩)
      rw [hbells, Multiset.mem_singleton] at hb
      rw [hb]
    | rings =>
      obtain ⟨rfl, hcues⟩ := List.cons.inj hall
      refine stands_notice ?_
      rw [hcues, hbells]
      exact .dueNoticed answers
  | dueNoticed answers =>
    obtain ⟨rfl, hcues⟩ := List.cons.inj hall
    refine stands_fetchAnswer here answers (fun b hb => ?_) hlater (.inr ⟨rfl, hcues, rfl⟩)
    rw [hbells] at hb
    exact absurd hb (Multiset.notMem_zero b)
  | late alarmed none_ later =>
    obtain ⟨rfl, hcues⟩ := List.cons.inj hall
    refine stands_notice ?_
    rw [hcues, hbells]
    exact .lateNoticed alarmed none_ later
  | lateNoticed alarmed none_ later =>
    cases alarmed with
    | waits => exact absurd (List.cons.inj hall).1 works
    | rings =>
      obtain ⟨rfl, hcues⟩ := List.cons.inj hall
      refine stands_endRest ?_
      rw [hcues, hbells]
      exact .lateDue none_
  | lateDue none_ => exact absurd (List.cons.inj hall).1 works
  | yields rests none_ later =>
    obtain ⟨rfl, hcues⟩ := List.cons.inj hall
    exact stands_giveUpWork (hbells ▸ rests) none_ hcues
  | @ended answer limit givenUp _ own answered later =>
    obtain ⟨rfl, hcues⟩ := List.cons.inj hall
    unfold stepTurn
    simp only [if_true]
    refine stands_notice ?_
    rw [hcues, hbells]
    exact .looks own answered (fun _ h => absurd h List.not_mem_nil) later
  | looks => exact absurd (List.cons.inj hall).1 works

end Lane

/-! ## The passing of time -/

/-- Some alarms among one are that one or none. -/
theorem split_singleton {α : Type} {x : α} {l : List α} {t : Multiset α}
    (h : ({x} : Multiset α) = l + t) : l = [] ∧ t = {x} ∨ l = [x] ∧ t = 0 := by
  cases l with
  | nil => exact .inl ⟨rfl, ((zero_add t).symm.trans h.symm)⟩
  | cons y l =>
    rw [← Multiset.cons_coe, Multiset.cons_add, Multiset.singleton_eq_cons_iff] at h
    obtain ⟨rfl, hrest⟩ := h
    obtain ⟨hl, ht⟩ := add_eq_zero.mp hrest
    exact .inr ⟨by rw [(Multiset.coe_eq_zero l).mp hl], ht⟩

/-- Some alarms among two come in one order or the other. -/
theorem split_pair {α : Type} {x y : α} {l : List α} {t : Multiset α}
    (h : ({x, y} : Multiset α) = l + t) :
    l = [] ∧ t = {x, y} ∨ (l = [x] ∧ t = {y} ∨ l = [x, y] ∧ t = 0) ∨
      (l = [y] ∧ t = {x} ∨ l = [y, x] ∧ t = 0) := by
  cases l with
  | nil => exact .inl ⟨rfl, (zero_add t).symm.trans h.symm⟩
  | cons z l =>
    rw [← Multiset.cons_coe, Multiset.cons_add] at h
    rcases Multiset.cons_eq_cons.mp h with ⟨rfl, hrest⟩ | ⟨-, cs, hy, hx⟩
    · rcases split_singleton hrest with ⟨rfl, ht⟩ | ⟨rfl, ht⟩
      · exact .inr (.inl (.inl ⟨rfl, ht⟩))
      · exact .inr (.inl (.inr ⟨rfl, ht⟩))
    · obtain ⟨rfl, rfl⟩ := (Multiset.singleton_eq_cons_iff _).mp hy
      rcases split_singleton hx.symm with ⟨rfl, ht⟩ | ⟨rfl, ht⟩
      · exact .inr (.inr (.inl ⟨rfl, ht⟩))
      · exact .inr (.inr (.inr ⟨rfl, ht⟩))

/-- A step that waits for no turn rests, with two alarms that are set. -/
theorem Stint.Stage.resting_of_nil (h : st.Stage a m P ok timer [] bells) :
    ∃ alarm number pending there expiry,
      st = { work := .resting alarm pending, limit := some number } ∧
      bells = {⟨there, alarm, .rested⟩, ⟨expiry, number, .limit⟩} ∧
      (there.lt expiry = true ∨ expiry.lt there = true) ∧
      (there.lt expiry = true → Answers a P ok pending) ∧ (expiry.lt there = true → ok none) := by
  generalize hnil : ([] : List Cue) = cues at h
  cases h with
  | resting apart inTime late => exact ⟨_, _, _, _, _, rfl, rfl, apart, inTime, late⟩
  | due | lateNoticed => exact absurd hnil.symm (List.append_ne_nil_of_right_ne_nil _ (by simp))
  | fresh | rested | dueNoticed | late | lateDue | yields | ended | looks => cases hnil

/-- Of the answer and the end of the time of a step, the one that comes first has its turn first. -/
theorem Stint.Stage.passes {rung : List Bell} (h : st.Stage a m P ok timer [] (s.bells id))
    (passes : s.Passes id s' rung) :
    st.Stage a m P ok s'.world.timer (rung.map Bell.cue) (s'.bells id) := by
  obtain ⟨alarm, number, pending, there, expiry, rfl, hbells, apart, inTime, late⟩ := h.resting_of_nil
  have hanswers : there.rank ≤ expiry.rank → Answers a P ok pending := fun h =>
    inTime (Binary64.lt_of_rank_le apart h)
  have hnone : expiry.rank ≤ there.rank → ok none := fun h =>
    late (Binary64.lt_of_rank_le apart.symm h)
  have hsorted := passes.sorted
  have hearlier := passes.earlier
  have hlater : Later s'.world.timer (s'.bells id) := passes.later
  rw [passes.bells] at hbells
  rcases split_pair hbells.symm with ⟨rfl, hrest⟩ | (⟨rfl, hrest⟩ | ⟨rfl, hrest⟩) |
    (⟨rfl, hrest⟩ | ⟨rfl, hrest⟩)
  · rw [hrest]
    exact .resting apart inTime late
  · rw [hrest] at hearlier hlater ⊢
    exact .rested (.waits expiry) (hanswers (by simpa using hearlier)) hlater
  · rw [hrest] at hlater ⊢
    exact .rested .rings (hanswers (by simpa using hsorted)) hlater
  · rw [hrest] at hearlier hlater ⊢
    exact .late (.waits there) (hnone (by simpa using hearlier)) hlater
  · rw [hrest] at hlater ⊢
    exact .late .rings (hnone (by simpa using hsorted)) hlater

end Conveyor.Worker
