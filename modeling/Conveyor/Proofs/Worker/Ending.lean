import Mathlib.Algebra.Order.Ring.Nat
import Mathlib.Order.Lattice.Nat
import Conveyor.Proofs.Worker.Lane
import Conveyor.Proofs.Worker.Reached

/-!
# Workers that return

Every turn of a worker that takes no more records makes what is left to do cost less. So it returns,
unless it waits for an alarm that does not go off. An alarm goes off when its time has come, if only a
moment after that time is later; times are rounded, so a moment may be too short to count when very
much time has passed.
-/

/-!
## What the turns of a lane cost

Every turn that is pending has a weight, and every lane has the cost of what it may still come to.
A turn of a lane makes the two together less. So no lane takes turns for ever.
-/

namespace Conveyor

namespace Activity

variable {α β : Type} {t : Activity α}

/-- How often the activity stops at most. -/
noncomputable def halts (t : Activity α) : Nat := sInf {n | Within n t}

theorem within_halts {n : Nat} (h : Within n t) : Within t.halts t :=
  Nat.sInf_mem (s := {n | Within n t}) ⟨n, h⟩

theorem halts_le {n : Nat} (h : Within n t) : t.halts ≤ n := Nat.sInf_le h

/-- How often it stops at most after a reply that is still to come. -/
noncomputable def haltsAfter (next : β → Activity α) : Nat := sInf {n | ∀ b, Within n (next b)}

theorem within_haltsAfter {next : β → Activity α} {n : Nat} (h : ∀ b, Within n (next b)) (b : β) :
    Within (haltsAfter next) (next b) :=
  Nat.sInf_mem (s := {n | ∀ b, Within n (next b)}) ⟨n, h⟩ b

theorem haltsAfter_le {next : β → Activity α} {n : Nat} (h : ∀ b, Within n (next b)) :
    haltsAfter next ≤ n := Nat.sInf_le h

end Activity

namespace Worker

open Activity

variable {τ σ : Type} {id : LaneId} {cue : Cue} {st st' : Stint τ} {l l' : Lane τ}
  {gone new : Multiset Turn} {t : Activity LaneResult}

/-- The weight of a turn of a lane. -/
def Cue.weight : Cue → Nat
  | .goOn => 1
  | .report _ | .limit => 2
  | .work => 3
  | .rested => 4

/-- The weight of a turn; `width` is the greatest number of runs of a record. -/
def Turn.weight (width : Nat) : Turn → Nat
  | .take | .release _ => 1
  | .poll | .settle _ => 2
  | .tally _ => 3
  | .lane _ cue => cue.weight
  | .enter _ => width + 2

theorem Cue.weight_pos (cue : Cue) : 0 < cue.weight := by cases cue <;> exact Nat.succ_pos _

theorem Turn.weight_pos (width : Nat) (t : Turn) : 0 < t.weight width := by
  cases t with
  | lane id cue => exact cue.weight_pos
  | take | poll | enter | tally | settle | release => exact Nat.succ_pos _

/-- The weight of all turns that are pending. -/
def weigh (width : Nat) (P : Multiset Turn) : Nat := (P.map (Turn.weight width)).sum

@[simp] theorem weigh_zero (width : Nat) : weigh width 0 = 0 := rfl

@[simp] theorem weigh_cons (width : Nat) (t : Turn) (P : Multiset Turn) :
    weigh width (t ::ₘ P) = t.weight width + weigh width P := by
  rw [weigh, Multiset.map_cons, Multiset.sum_cons, weigh]

@[simp] theorem weigh_singleton (width : Nat) (t : Turn) : weigh width {t} = t.weight width := by
  rw [weigh, Multiset.map_singleton, Multiset.sum_singleton]

@[simp] theorem weigh_add (width : Nat) (P Q : Multiset Turn) :
    weigh width (P + Q) = weigh width P + weigh width Q := by
  rw [weigh, Multiset.map_add, Multiset.sum_add, weigh, weigh]

/-- The cost of the step under way, besides that of what follows it. -/
def Stint.cost (st : Stint τ) : Nat :=
  3 + (match st.work with
    | .fresh _ => 2
    | _ => 0) + if st.isGivenUp then 0 else 3

/-- The cost of what a lane may still come to. -/
noncomputable def Lane.cost : Lane τ → Nat
  | .going t => 10 * t.halts + 3
  | .stepping st next => 10 * haltsAfter next + st.cost
  | .ended _ => 0

/-- There is a bound on how often a lane stops. -/
def Lane.Bounded : Lane τ → Prop
  | .going t => ∃ n, Within n t
  | .stepping _ next => ∃ n, ∀ answer, Within n (next answer)
  | .ended _ => True

theorem Stint.Moves.cost (h : st.Moves id cue st' gone new) (width : Nat) :
    weigh width new + st'.cost < cue.weight + st.cost := by
  cases h with
  | ends answer rest =>
    simp only [weigh_singleton, Turn.weight, Cue.weight, Stint.cost]
    omega
  | calls pending fresh =>
    simp only [weigh_singleton, Turn.weight, Cue.weight, Stint.cost, fresh]
    omega
  | rests number pending fresh =>
    simp only [weigh_singleton, Turn.weight, Cue.weight, Stint.cost, fresh]
    omega
  | worksNot | wakesNot =>
    simp only [weigh_zero, Cue.weight]
    omega
  | wakes resting =>
    simp only [weigh_singleton, Turn.weight, Cue.weight, Stint.cost, resting]
    omega
  | notices alert =>
    rcases alert with rfl | rfl
    · simp only [weigh_singleton, Turn.weight, Cue.weight, Stint.cost]
      omega
    · simp only [weigh_singleton, Turn.weight, Cue.weight, Stint.cost]
      omega
  | noticesNot calm alert =>
    rcases alert with rfl | ⟨limit, rfl⟩
    · simp only [weigh_zero, Cue.weight]
      omega
    · simp only [weigh_zero, Cue.weight]
      omega
  | givesUp unfinished on =>
    have hnew : weigh width (if st.work.isResting then {.lane id .work} else 0) ≤ 3 := by
      split
      · exact Nat.le_of_eq (weigh_singleton width _)
      · exact Nat.zero_le _
    simp only [Cue.weight, Stint.cost, on, Bool.false_eq_true, if_true, if_false]
    omega
  | waits =>
    simp only [weigh_zero, Cue.weight, Stint.cost]
    omega

theorem Lane.Goes.cost (h : Goes id t l new) (bounded : ∃ n, Within n t) (width : Nat) :
    l.Bounded ∧ weigh width new + l.cost ≤ 10 * t.halts + 3 := by
  obtain ⟨n, hn⟩ := bounded
  have hwithin := within_halts hn
  cases h with
  | ends r =>
    refine ⟨trivial, ?_⟩
    simp only [weigh_singleton, Turn.weight, Lane.cost]
    omega
  | @pauses next cue before alert =>
    obtain ⟨hpos, hnext⟩ := before _ hwithin
    have hle := halts_le hnext
    refine ⟨⟨_, hnext⟩, ?_⟩
    have hcue : cue.weight ≤ 4 := by
      rcases alert with rfl | rfl
      · exact Nat.le_of_ble_eq_true rfl
      · exact Nat.le_refl _
    simp only [weigh_singleton, Turn.weight, Lane.cost]
    omega
  | begins before call number =>
    have hpos := (before none _ hwithin).1
    have hnext := fun answer => (before answer _ hwithin).2
    have hle := haltsAfter_le hnext
    refine ⟨⟨_, hnext⟩, ?_⟩
    simp only [weigh_add, weigh_singleton, Turn.weight, Cue.weight, Lane.cost, Stint.cost,
      Bool.false_eq_true, if_false]
    omega
  | hurries before call =>
    have hpos := (before none _ hwithin).1
    have hnext := fun answer => (before answer _ hwithin).2
    have hle := haltsAfter_le hnext
    refine ⟨⟨_, hnext⟩, ?_⟩
    simp only [weigh_singleton, Turn.weight, Cue.weight, Lane.cost, Stint.cost, if_true]
    omega

/-- A lane that has a turn costs less than before, with the weight of its turns. -/
theorem Lane.Moves.cost (h : l.Moves id cue l' gone new) (bounded : l.Bounded) (width : Nat) :
    l'.Bounded ∧ weigh width new + l'.cost < cue.weight + l.cost := by
  cases h with
  | @goes t l new on =>
    obtain ⟨hbounded, hcost⟩ := on.cost bounded width
    refine ⟨hbounded, ?_⟩
    show weigh width new + l'.cost < 1 + (10 * t.halts + 3)
    omega
  | wakes t =>
    refine ⟨bounded, ?_⟩
    simp only [weigh_singleton, Turn.weight, Cue.weight]
    omega
  | ignores t idle =>
    refine ⟨bounded, ?_⟩
    have hpos := cue.weight_pos
    simp only [weigh_zero]
    omega
  | steps h next =>
    refine ⟨bounded, ?_⟩
    have hcost := h.cost width
    simp only [Lane.cost]
    omega
  | @looks st answer next l gone new ended limits on =>
    obtain ⟨n, hn⟩ := bounded
    have hwithin := within_haltsAfter hn answer
    obtain ⟨hbounded, hcost⟩ := on.cost ⟨_, hwithin⟩ width
    have hle := halts_le hwithin
    refine ⟨hbounded, ?_⟩
    have hstep : 3 ≤ st.cost := by
      rw [Stint.cost, Nat.add_assoc]
      exact Nat.le_add_right 3 _
    show weigh width new + l'.cost < 1 + (10 * haltsAfter next + st.cost)
    omega
  | done cue r =>
    refine ⟨trivial, ?_⟩
    have hpos := cue.weight_pos
    simp only [weigh_zero]
    omega

end Worker
end Conveyor

namespace Conveyor.Worker

variable {τ σ : Type} {ad : Adapter τ σ} {s : Settings} {a : Arena}

/-! ## Alarms that go off -/

namespace Scene

/-- If nothing but an alarm is waited for, a moment after the time of the alarm is later than it. -/
def IsTimely (s : Scene σ) : Prop :=
  s.turns = [] → ∀ x, s.alarms.cleared.first? = some x →
    ((awaitAlarm { s with alarms := s.alarms.cleared }).world.timer.add World.moment).le x.wake = false

instance (s : Scene σ) : Decidable s.IsTimely :=
  decidable_of_iff (s.turns = [] → s.alarms.cleared.first?.all (fun x =>
    !((awaitAlarm { s with alarms := s.alarms.cleared }).world.timer.add World.moment).le
      x.wake) = true) <| by
    unfold IsTimely
    cases s.alarms.cleared.first? <;> simp

theorem wake_ne_nil {s : Scene σ} (timely : s.IsTimely) (pending : ∃ t, t ∈ s.pending) :
    s.wake.turns ≠ [] := by
  unfold wake
  simp only
  by_cases hturns : s.turns = []
  · rw [if_pos (List.isEmpty_iff.mpr hturns)]
    obtain ⟨t, ht⟩ := pending
    unfold Scene.pending at ht
    rw [hturns, Multiset.coe_nil, zero_add] at ht
    obtain ⟨y, hy, -⟩ := Multiset.mem_map.mp ht
    rw [← (Alarms.active_cleared s.alarms).1] at hy
    have hheap : y ∈ s.alarms.cleared.heap.toList := (List.mem_filter.mp (Multiset.mem_coe.mp hy)).1
    obtain ⟨x, xs, hxs⟩ := List.exists_cons_of_ne_nil (List.ne_nil_of_mem hheap)
    have hfirst : s.alarms.cleared.first? = some x := Alarms.first?_eq_some_iff.mpr ⟨xs, hxs⟩
    have hring := Alarms.ring_ne_nil hfirst (Alarms.first?_cleared hfirst) (timely hturns x hfirst)
    refine List.append_ne_nil_of_right_ne_nil _ ?_
    rw [alarms_awaitAlarm]
    exact hring
  · rw [if_neg fun h => hturns (List.isEmpty_iff.mp h)]
    exact List.append_ne_nil_of_left_ne_nil hturns _

end Scene

/-! ## What is left to do -/

/-- What the runs of a record may still come to. -/
noncomputable def Job.cost (j : Job τ) : Nat := (j.lanes.map Lane.cost).sum

theorem Job.cost_set {j : Job τ} {i : Nat} {l : Lane τ} (l' : Lane τ) (hl : j.lanes[i]? = some l) :
    ({ j with lanes := j.lanes.set i l' } : Job τ).cost + l.cost = j.cost + l'.cost := by
  have hsum : ∀ (lanes : List (Lane τ)) (i : Nat), lanes[i]? = some l →
      ((lanes.set i l').map Lane.cost).sum + l.cost = (lanes.map Lane.cost).sum + l'.cost := by
    intro lanes
    induction lanes with
    | nil => exact fun i hi => absurd hi (by simp)
    | cons m lanes ih =>
      intro i hi
      cases i with
      | zero =>
        obtain rfl := Option.some.inj hi
        simp only [List.set_cons_zero, List.map_cons, List.sum_cons]
        omega
      | succ i =>
        have hrest := ih i hi
        simp only [List.set_cons_succ, List.map_cons, List.sum_cons]
        omega
  exact hsum j.lanes i hl

namespace Floor

variable {f f' g : Floor τ σ} {t : Turn} {rest : List Turn} {width : Nat} {j j' : Job τ}

/-- What is left to do. -/
noncomputable def cost (width : Nat) (f : Floor τ σ) : Nat :=
  weigh width f.scene.pending + (f.jobs.map Job.cost).sum

/-- No more records are taken, no record has more than so many runs, and none of these goes on for
ever. -/
structure Ending (width : Nat) (f : Floor τ σ) : Prop extends Sound f where
  closed : f.intake.isOpen = false
  width_le : ∀ j ∈ f.jobs, j.lanes.length ≤ width
  bounded : ∀ j ∈ f.jobs, ∀ l ∈ j.lanes, l.Bounded

theorem Ending.quiet (hf : f.Ending width) :
    f.scene.pending.count .take = 0 ∧ f.scene.pending.count .poll = 0 ∧ f.intake.waiting = none := by
  have hloop := hf.loop
  rw [hf.closed] at hloop
  simp only [Bool.false_eq_true, if_false] at hloop
  refine ⟨by omega, by omega, ?_⟩
  rw [← Option.toList_eq_nil_iff, ← List.length_eq_zero_iff]
  omega

/-- For every record under way something is pending. -/
theorem Ending.exists_pending (hf : f.Ending width) (busy : f.isIdle = false) :
    ∃ t, t ∈ f.scene.pending := by
  have hjobs : f.jobs ≠ [] := by
    rintro hjobs
    unfold isIdle at busy
    rw [hf.closed, hjobs] at busy
    cases busy
  obtain ⟨j, hj⟩ := List.exists_mem_of_ne_nil _ hjobs
  exact (hf.phase j hj).exists_mem

theorem cost_setJob (nodup : (f.jobs.map Job.id).Nodup) (hj : j ∈ f.jobs) (j' : Job τ)
    (same : j'.id = j.id) :
    ((f.setJob j').jobs.map Job.cost).sum + j.cost = (f.jobs.map Job.cost).sum + j'.cost := by
  obtain ⟨before, after, hjobs, hset, -⟩ := exists_split nodup hj
  rw [hset j' same, hjobs]
  simp only [List.map_append, List.map_cons, List.sum_append, List.sum_cons]
  omega

/-- A record that gets further leaves less to do, if what goes costs more than what comes. -/
theorem Ending.advanced {gone new : Multiset Turn} (hf : f.Ending width)
    (ha : Advances f f' j j' gone new) (length : j'.lanes.length = j.lanes.length)
    (bounded : ∀ l ∈ j'.lanes, l.Bounded)
    (less : weigh width new + j'.cost < weigh width gone + j.cost) :
    f'.Ending width ∧ f'.cost width < f.cost width := by
  refine ⟨⟨hf.toSound.advanced ha, by rw [ha.intake, hf.closed], fun k hk => ?_,
    fun k hk => ?_⟩, ?_⟩
  · rcases mem_setJob (ha.jobs ▸ hk) with rfl | ⟨hk, -⟩
    · rw [length]
      exact hf.width_le j ha.mem
    · exact hf.width_le k hk
  · rcases mem_setJob (ha.jobs ▸ hk) with rfl | ⟨hk, -⟩
    · exact bounded
    · exact hf.bounded k hk
  · have hcost := cost_setJob hf.nodup ha.mem j' ha.id
    have hpending := congrArg (weigh width) ha.changes.pending
    rw [weigh_add, weigh_add] at hpending
    unfold cost
    rw [ha.jobs]
    omega

/-- The runs of the record are left as they are. -/
theorem Ending.advanced_same {gone new : Multiset Turn} (hf : f.Ending width)
    (ha : Advances f f' j j' gone new) (lanes : j'.lanes = j.lanes)
    (less : weigh width new < weigh width gone) :
    f'.Ending width ∧ f'.cost width < f.cost width := by
  refine hf.advanced ha (by rw [lanes]) (fun l hl => hf.bounded j ha.mem l (lanes ▸ hl)) ?_
  rw [Job.cost, lanes, ← Job.cost]
  exact Nat.add_lt_add_right less _

/-- A turn that does nothing is done with. -/
theorem Ending.popped (hf : f.Ending width) (h : f.scene.turns = t :: rest)
    (sound : (f.popped rest).Sound) :
    (f.popped rest).Ending width ∧ (f.popped rest).cost width < f.cost width := by
  refine ⟨⟨sound, hf.closed, hf.width_le, hf.bounded⟩, ?_⟩
  have hpos := t.weight_pos width
  unfold cost
  rw [pending_eq_popped h, weigh_cons]
  show weigh width (f.popped rest).scene.pending + (f.jobs.map Job.cost).sum < _
  omega

/-- A record that leaves leaves less to do. -/
theorem Ending.release (hf : f.Ending width) (h : f.scene.turns = .release j.id :: rest) :
    (release j (f.popped rest)).Ending width ∧
      (release j (f.popped rest)).cost width < f.cost width := by
  obtain ⟨-, -, hwaiting⟩ := hf.quiet
  obtain ⟨hscene, hintake⟩ := release_of_none j (f.popped rest) hwaiting
  have hjobs : ∀ k ∈ (Floor.release j (f.popped rest)).jobs, k ∈ f.jobs := by
    intro k hk
    rw [jobs_release] at hk
    exact List.mem_of_mem_filter hk
  have hfewer : ((Floor.release j (f.popped rest)).jobs.map Job.cost).sum ≤
      (f.jobs.map Job.cost).sum := by
    rw [jobs_release]
    exact (List.filter_sublist.map _).sum_le_sum fun _ _ => Nat.zero_le _
  refine ⟨⟨hf.toSound.release h, by rw [hintake]; exact hf.closed,
    fun k hk => hf.width_le k (hjobs k hk), fun k hk => hf.bounded k (hjobs k hk)⟩, ?_⟩
  unfold cost
  rw [pending_eq_popped h, weigh_cons, hscene]
  show _ < 1 + _ + _
  omega

/-- The runs of a record weigh one turn each as it enters. -/
theorem weigh_goOn (ids : List LaneId) :
    weigh width (ids.map fun id => Turn.lane id .goOn : List Turn) = ids.length := by
  induction ids with
  | nil => rfl
  | cons id ids ih =>
    rw [List.map_cons, ← Multiset.cons_coe, weigh_cons, ih, List.length_cons, Nat.add_comm]
    rfl

/-- A turn leaves less to do. -/
theorem Ending.turned (hf : f.Ending width) (h : f.scene.turns = t :: rest)
    (turned : Turned ad s a f rest t f') : f'.Ending width ∧ f'.cost width < f.cost width := by
  obtain ⟨htake, hpoll, -⟩ := hf.quiet
  have hmem := mem_pending h
  have hsteady := hf.toSteady
  cases turned with
  | takes => exact absurd (Multiset.count_eq_zero.mp htake) (not_not.mpr hmem)
  | polls => exact absurd (Multiset.count_eq_zero.mp hpoll) (not_not.mpr hmem)
  | late about missing => exact hf.popped h (hf.toSound.late h about missing)
  | astray hj beyond =>
    exact hf.popped h (hf.toSound.advanced (hsteady.advances_astray h hj beyond))
  | @enters j scene hj some_ world changes =>
    refine hf.advanced_same (hsteady.advances_enter h hj some_ changes) rfl ?_
    have hwidth := hf.width_le j hj
    rw [weigh_goOn, weigh_singleton, Job.laneIds, List.length_map, List.length_range]
    show _ < width + 2
    omega
  | drops hj none_ =>
    exact hf.advanced_same (hsteady.advances_drop h hj none_ _ _) rfl (by simp [Turn.weight])
  | @lane j i cue l hj hl =>
    obtain ⟨gone, new, moves, hlane⟩ := hsteady.advances_lane ad h hj hl
    obtain ⟨hbounded, hless⟩ := moves.cost (hf.bounded j hj l (List.mem_of_getElem? hl)) width
    refine hf.advanced hlane (List.length_set ..) (fun m hm => ?_) ?_
    · rcases List.mem_or_eq_of_mem_set hm with hm | rfl
      · exact hf.bounded j hj m hm
      · exact hbounded
    · have hcost := j.cost_set (l.act ad ⟨j.id, i⟩ cue (f.popped rest).scene).1 hl
      rw [weigh_add, weigh_singleton]
      show _ < cue.weight + _ + _
      omega
  | tallies hj =>
    obtain ⟨new, hnew, htally⟩ := hsteady.advances_tally h hj
    refine hf.advanced_same htally rfl ?_
    rcases hnew with rfl | rfl
    · simp [Turn.weight]
    · simp [Turn.weight]
  | settles hj =>
    exact hf.advanced_same (hsteady.advances_settle h hj) rfl (by simp [Turn.weight])
  | releases hj => exact hf.release h

theorem Ending.turn (hf : f.Ending width) :
    (f.turn ad s a).Ending width ∧ (f.turn ad s a).cost width ≤ f.cost width ∧
      (f.scene.turns ≠ [] → (f.turn ad s a).cost width < f.cost width) := by
  cases h : f.scene.turns with
  | nil =>
    rw [turn_eq_self h]
    exact ⟨hf, Nat.le_refl _, fun hne => absurd rfl hne⟩
  | cons t rest =>
    obtain ⟨hturned, hcost⟩ := hf.turned h (turn_cases (s := s) (a := a) h)
    exact ⟨hturned, Nat.le_of_lt hcost, fun _ => hcost⟩

theorem Ending.turns (hf : f.Ending width) (n : Nat) :
    (f.turns ad s a n).Ending width ∧ (f.turns ad s a n).cost width ≤ f.cost width := by
  induction n generalizing f with
  | zero => exact ⟨hf, Nat.le_refl _⟩
  | succ n ih =>
    obtain ⟨hturn, hle, -⟩ := hf.turn (s := s) (a := a)
    obtain ⟨hrest, hrest_le⟩ := ih hturn
    exact ⟨hrest, hrest_le.trans hle⟩

theorem Ending.wake (hf : f.Ending width) : f.wake.Ending width :=
  ⟨hf.toSound.wake, hf.closed, hf.width_le, hf.bounded⟩

/-- A round in which there are turns leaves less to do. -/
theorem Ending.round (hf : f.Ending width) (on : f.wake.scene.turns ≠ []) :
    (f.round ad s a).Ending width ∧ (f.round ad s a).cost width < f.cost width := by
  have hwake : f.wake.Ending width := hf.wake
  have hcost : f.wake.cost width = f.cost width := by
    show weigh width f.scene.wake.pending + _ = _
    rw [f.scene.wake_spec.1]
    rfl
  obtain ⟨hturn, -, hless⟩ := hwake.turn (s := s) (a := a)
  obtain ⟨n, hn⟩ := Nat.exists_eq_succ_of_ne_zero fun h => on (List.length_eq_zero_iff.mp h)
  have hround : f.round ad s a = (f.wake.turn ad s a).turns ad s a n := by
    unfold Floor.round
    rw [hn]
    rfl
  obtain ⟨hrest, hle⟩ := hturn.turns (s := s) (a := a) n
  rw [hround, ← hcost]
  exact ⟨hrest, hle.trans_lt (hless on)⟩

/-- Every alarm that is waited for goes off, until nothing is left to do. -/
def Timely (ad : Adapter τ σ) (s : Settings) (a : Arena) (f : Floor τ σ) : Prop :=
  ∀ n, (∀ m ≤ n, ((fun g => g.round ad s a)^[m] f).isIdle = false) →
    ((fun g => g.round ad s a)^[n] f).scene.IsTimely

theorem Timely.round (h : f.Timely ad s a) (busy : f.isIdle = false) :
    (f.round ad s a).Timely ad s a := by
  intro n hn
  refine h (n + 1) fun m hm => ?_
  cases m with
  | zero => exact busy
  | succ m => exact hn m (Nat.le_of_succ_le_succ hm)

/-- It is enough to see to the rounds up to one after which nothing is left to do. -/
theorem timely_of_idle {n : Nat} (idle : ((fun g => g.round ad s a)^[n] f).isIdle = true)
    (before : ∀ m < n, ((fun g => g.round ad s a)^[m] f).scene.IsTimely) : f.Timely ad s a := by
  intro m hm
  rcases Nat.lt_or_ge m n with hlt | hge
  · exact before m hlt
  · rw [hm n hge] at idle
    cases idle

/-- A worker that takes no more records returns, if every alarm that it waits for goes off. -/
theorem Ending.exists_run (hf : f.Ending width) (timely : f.Timely ad s a) :
    ∃ g, f.run ad s a = some g ∧ g.Ending width := by
  generalize hn : f.cost width = n
  induction n using Nat.strong_induction_on generalizing f with
  | _ n ih =>
    rw [run]
    split
    · exact ⟨f, rfl, hf⟩
    · rename_i hbusy
      have hbusy := Bool.eq_false_iff.mpr hbusy
      have hfirst : f.scene.IsTimely := timely 0 fun m hm => by
        rw [Nat.le_zero.mp hm]
        exact hbusy
      have hon := Scene.wake_ne_nil hfirst (hf.exists_pending hbusy)
      obtain ⟨hround, hless⟩ := hf.round (s := s) (a := a) hon
      exact ih _ (hn ▸ hless) hround (timely.round hbusy) rfl

end Floor
end Conveyor.Worker
