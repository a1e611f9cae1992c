import Mathlib.Data.Multiset.Filter
import Conveyor.Proofs.Run.Replies
import Conveyor.Proofs.Worker.Heap
import Conveyor.Proofs.Worker.Lane

/-!
# What a run sees of a scene

Of all turns and alarms a run sees its own: the turns in the order in which they come, and the times of
its alarms. Nothing that another run does in a turn changes what it sees, and when time passes its
alarms become turns in the order of their times.
-/

namespace Conveyor.Worker

variable {σ τ : Type}

/-- Why a run has a turn, if it is its own. -/
def Turn.cue? (id : LaneId) : Turn → Option Cue
  | .lane id' cue => if id' = id then some cue else none
  | _ => none

/-- An alarm as its run sees it. -/
structure Bell where
  wake : Binary64
  number : Nat
  cue : Cue

def Alarm.bell? (id : LaneId) (x : Alarm Turn) : Option Bell :=
  (x.cause.cue? id).map fun cue => ⟨x.wake, x.number, cue⟩

namespace Scene

variable {id id' : LaneId} {s s' s'' : Scene σ} {t : Turn} {cue : Cue}

/-- Why the run has its next turns. -/
def cues (id : LaneId) (s : Scene σ) : List Cue := s.turns.filterMap (Turn.cue? id)

/-- The alarms that are set for the run. -/
def bells (id : LaneId) (s : Scene σ) : Multiset Bell := s.alarms.active.filterMap (Alarm.bell? id)

theorem turns_ne_nil (busy : s.cues id ≠ []) : s.turns ≠ [] := by
  rintro hnone
  exact busy (by rw [cues, hnone, List.filterMap_nil])

theorem cue?_own (id : LaneId) (cue : Cue) : (Turn.lane id cue).cue? id = some cue := if_pos rfl

theorem cue?_other (h : id ≠ id') (cue : Cue) : (Turn.lane id cue).cue? id' = none := if_neg h

theorem cues_callFor (id : LaneId) (t : Turn) (s : Scene σ) :
    (s.callFor t).cues id = s.cues id ++ (t.cue? id).toList := by
  unfold cues callFor
  rw [List.filterMap_append]
  cases h : t.cue? id with
  | none => simp [h]
  | some cue => simp [h]

@[simp] theorem cues_callFor_own (id : LaneId) (cue : Cue) (s : Scene σ) :
    (s.callFor (.lane id cue)).cues id = s.cues id ++ [cue] := by
  rw [cues_callFor, cue?_own]
  rfl

@[simp] theorem bells_callFor (id : LaneId) (t : Turn) (s : Scene σ) :
    (s.callFor t).bells id = s.bells id := rfl

@[simp] theorem cues_setAlarm (id : LaneId) (seconds : Binary64) (t : Turn) (s : Scene σ) :
    (s.setAlarm seconds t).2.cues id = s.cues id := rfl

theorem bells_setAlarm_own (id : LaneId) (seconds : Binary64) (cue : Cue) (s : Scene σ) :
    (s.setAlarm seconds (.lane id cue)).2.bells id =
      ⟨s.world.timer.add seconds, s.alarms.count, cue⟩ ::ₘ s.bells id := by
  unfold bells setAlarm
  rw [Alarms.active_insert]
  exact Multiset.filterMap_cons_some _ _ _ (by rw [Alarm.bell?, cue?_own]; rfl)

theorem bells_setAlarm_other (seconds : Binary64) (s : Scene σ) (other : t.cue? id = none) :
    (s.setAlarm seconds t).2.bells id = s.bells id := by
  unfold bells setAlarm
  rw [Alarms.active_insert]
  exact Multiset.filterMap_cons_none _ _ (by rw [Alarm.bell?, other]; rfl)

theorem mem_bells {b : Bell} (hb : b ∈ s.bells id) :
    ∃ x ∈ s.alarms.active, x.bell? id = some b ∧ x.wake = b.wake ∧ x.number = b.number := by
  obtain ⟨x, hx, hbell⟩ := (Multiset.mem_filterMap _ _).mp hb
  refine ⟨x, hx, hbell, ?_⟩
  obtain ⟨cue, -, rfl⟩ := Option.map_eq_some_iff.mp hbell
  exact ⟨rfl, rfl⟩

/-- Of the alarms of a run those of a number are called off. -/
theorem bells_callOff (id : LaneId) (number : Nat) (s : Scene σ) :
    (s.callOff number).bells id = (s.bells id).filter (·.number ≠ number) := by
  unfold bells callOff
  rw [Alarms.active_callOff, Multiset.filterMap_filter, Multiset.filter_filterMap]
  congr 1
  funext x
  unfold Alarm.bell?
  cases x.cause.cue? id with
  | none => simp
  | some cue => simp [Option.filter_some]

theorem eq_of_cue? (h : t.cue? id = some cue) : t = .lane id cue := by
  cases t with
  | lane id' cue' =>
    have hid : id' = id := by
      by_contra hne
      rw [cue?_other hne] at h
      cases h
    subst hid
    rw [cue?_own] at h
    rw [Option.some.inj h]
  | take | poll | enter | tally | settle | release => cases h

/-- What a run waits for is pending. -/
theorem mem_pending_of_mem_cues (h : cue ∈ s.cues id) : Turn.lane id cue ∈ s.pending := by
  obtain ⟨t, ht, hcue⟩ := List.mem_filterMap.mp h
  exact Multiset.mem_add.mpr (.inl (eq_of_cue? hcue ▸ Multiset.mem_coe.mpr ht))

theorem mem_pending_of_mem_bells {b : Bell} (h : b ∈ s.bells id) :
    Turn.lane id b.cue ∈ s.pending := by
  obtain ⟨x, hx, hbell, -⟩ := mem_bells h
  obtain ⟨cue, hcue, rfl⟩ := Option.map_eq_some_iff.mp hbell
  exact Multiset.mem_add.mpr (.inr (Multiset.mem_map.mpr ⟨x, hx, eq_of_cue? hcue⟩))

/-! ## What other runs do -/

/-- From one scene to another just what one run sees has changed; no time has passed, and the
destinations are as reliable as before. -/
structure Beside (P : σ → Prop) (id : LaneId) (s s' : Scene σ) : Prop where
  timer : s'.world.timer = s.world.timer
  now : s'.world.now = s.world.now
  destinations : P s.world.destinations → P s'.world.destinations
  count : s.alarms.count ≤ s'.alarms.count
  cues : ∀ id', id ≠ id' → s'.cues id' = s.cues id'
  bells : ∀ id', id ≠ id' → s'.bells id' = s.bells id'
  numeric : Alarms.Numeric s'.alarms.heap → Alarms.Numeric s.alarms.heap
  ordered : s.alarms.Ordered → Alarms.Numeric s'.alarms.heap → s'.alarms.Ordered

variable {P : σ → Prop}

theorem beside_world (s : Scene σ) {w : World σ} (timer : w.timer = s.world.timer)
    (now : w.now = s.world.now) (destinations : P s.world.destinations → P w.destinations) :
    s.Beside P id { s with world := w } :=
  ⟨timer, now, destinations, Nat.le_refl _, fun _ _ => rfl, fun _ _ => rfl, fun h => h, fun h _ => h⟩

theorem Beside.refl (s : Scene σ) : s.Beside P id s := beside_world s rfl rfl fun h => h

theorem Beside.trans (h : s.Beside P id s') (h' : s'.Beside P id s'') : s.Beside P id s'' where
  timer := h'.timer.trans h.timer
  now := h'.now.trans h.now
  destinations hs := h'.destinations (h.destinations hs)
  count := h.count.trans h'.count
  cues id' ne := (h'.cues id' ne).trans (h.cues id' ne)
  bells id' ne := (h'.bells id' ne).trans (h.bells id' ne)
  numeric hn := h.numeric (h'.numeric hn)
  ordered ho hn := h'.ordered (h.ordered ho (h'.numeric hn)) hn

theorem beside_callFor (s : Scene σ) (other : ∀ id', id ≠ id' → t.cue? id' = none) :
    s.Beside P id (s.callFor t) where
  timer := rfl
  now := rfl
  destinations h := h
  count := Nat.le_refl _
  cues id' ne := by
    rw [cues_callFor, other id' ne]
    exact List.append_nil _
  bells _ _ := rfl
  numeric h := h
  ordered h _ := h

theorem beside_callFor_own (s : Scene σ) (cue : Cue) : s.Beside P id (s.callFor (.lane id cue)) :=
  beside_callFor s fun _ ne => cue?_other ne cue

theorem beside_setAlarm (s : Scene σ) (seconds : Binary64) (cue : Cue) :
    s.Beside P id (s.setAlarm seconds (.lane id cue)).2 where
  timer := rfl
  now := rfl
  destinations h := h
  count := Nat.le_succ _
  cues _ _ := rfl
  bells _ ne := bells_setAlarm_other seconds s (cue?_other ne cue)
  numeric hn x hx := by
    have hperm : (s.alarms.insert (s.world.timer.add seconds) (.lane id cue)).heap.Perm
        (s.alarms.heap.push _) := Alarms.rise_perm _ _ _ _
    exact hn x (hperm.mem_iff.mpr (Array.mem_push_of_mem _ hx))
  ordered ho hn := Alarms.ordered_insert ho _ _ hn

/-- A run calls off only what has been set for it. -/
theorem beside_callOff {number : Nat} (own : s.Reserved number (.lane id cue)) :
    s.Beside P id (s.callOff number) where
  timer := rfl
  now := rfl
  destinations h := h
  count := Nat.le_refl _
  cues _ _ := rfl
  bells id' ne := by
    rw [bells_callOff, Multiset.filter_eq_self]
    rintro b hb rfl
    obtain ⟨x, hx, hbell, -, hnumber⟩ := mem_bells hb
    rw [Alarm.bell?, own.cause x hx hnumber, cue?_other ne] at hbell
    cases hbell
  numeric hn x hx := by
    have hmem := Array.mem_map_of_mem (f := fun x : Alarm Turn =>
      if x.number = number then { x with isCalledOff := true } else x) hx
    have hx' := hn _ hmem
    split at hx'
    · exact hx'
    · exact hx'
  ordered ho _ := Alarms.ordered_callOff ho number

/-! ## What the passing of time does -/

/-- Time passes, and some alarms of a run become turns: those that come before the end of the moment,
in the order of their times. No time passes while turns have been called for. -/
structure Passes (id : LaneId) (s s' : Scene σ) (rung : List Bell) : Prop where
  timer : s.turns ≠ [] → s'.world.timer = s.world.timer
  count : s'.alarms.count = s.alarms.count
  cues : s'.cues id = s.cues id ++ rung.map Bell.cue
  bells : s.bells id = (rung : Multiset Bell) + s'.bells id
  sorted : rung.Pairwise fun b c => b.wake.rank ≤ c.wake.rank
  earlier : ∀ b ∈ rung, ∀ c ∈ s'.bells id, b.wake.rank ≤ c.wake.rank
  before : ∀ b ∈ rung, (s'.world.timer.add World.moment).le b.wake = false
  later : ∀ b ∈ s'.bells id, (s'.world.timer.add World.moment).le b.wake = true

theorem cue_bell? (id : LaneId) (x : Alarm Turn) :
    (x.bell? id).map Bell.cue = x.cause.cue? id := by
  rw [Alarm.bell?, Option.map_map]
  exact Option.map_id'

theorem passes_ring (ordered : s.alarms.Ordered) (numeric : Alarms.Numeric s.alarms.heap) :
    (∀ id, ∃ rung, s.Passes id s.ring rung) ∧ s.ring.alarms.Ordered := by
  obtain ⟨rung, rest, hring, hrings⟩ := Alarms.exists_rings s.alarms.heap.size
    (s.world.timer.add World.moment) ordered numeric (Nat.le_refl _)
  have hscene : s.ring = { s with turns := s.turns ++ rung.map Alarm.cause, alarms := rest } := by
    unfold ring Alarms.ring
    rw [hring]
  have hbell : ∀ {id : LaneId} {b : Bell}, b ∈ rung.filterMap (Alarm.bell? id) →
      ∃ x ∈ rung, x.wake = b.wake := by
    intro id b hb
    obtain ⟨x, hx, hbell⟩ := List.mem_filterMap.mp hb
    obtain ⟨cue, -, rfl⟩ := Option.map_eq_some_iff.mp hbell
    exact ⟨x, hx, rfl⟩
  have hcount : s.ring.alarms.count = s.alarms.count := (Alarms.ringFrom_spec _ _ _).2.2
  rw [hscene] at hcount ⊢
  refine ⟨fun id => ⟨rung.filterMap (Alarm.bell? id), fun _ => rfl, hcount, ?_, ?_, ?_, ?_, ?_, ?_⟩,
    hrings.ordered⟩
  · unfold cues
    rw [List.filterMap_append, List.filterMap_map, List.map_filterMap]
    congr 2
    funext x
    exact (cue_bell? id x).symm
  · unfold bells
    rw [hrings.active, Multiset.filterMap_add, Multiset.filterMap_coe]
  · refine List.pairwise_filterMap.mpr (hrings.sorted.imp fun {x y} hle b hb c hc => ?_)
    obtain ⟨_, -, rfl⟩ := Option.map_eq_some_iff.mp hb
    obtain ⟨_, -, rfl⟩ := Option.map_eq_some_iff.mp hc
    exact hle
  · intro b hb c hc
    obtain ⟨x, hx, hb⟩ := hbell hb
    obtain ⟨y, hy, -, hc, -⟩ := mem_bells hc
    rw [← hb, ← hc]
    exact hrings.earlier x hx y (Alarms.mem_heap_of_mem_active hy)
  · intro b hb
    obtain ⟨x, hx, hb⟩ := hbell hb
    rw [← hb]
    exact hrings.before x hx
  · intro b hb
    obtain ⟨x, hx, -, hb, -⟩ := mem_bells hb
    rw [← hb]
    exact hrings.after x (Alarms.mem_heap_of_mem_active hx)

theorem Passes.of_eq {s₁ : Scene σ} {rung : List Bell} (h : s₁.Passes id s' rung)
    (turns : s₁.turns = s.turns) (active : s₁.alarms.active = s.alarms.active)
    (count : s₁.alarms.count = s.alarms.count)
    (timer : s.turns ≠ [] → s₁.world.timer = s.world.timer) : s.Passes id s' rung where
  timer hne := (h.timer (turns ▸ hne)).trans (timer hne)
  count := h.count.trans count
  cues := by
    rw [h.cues, Scene.cues, Scene.cues, turns]
  bells := by
    rw [← h.bells, Scene.bells, Scene.bells, active]
  sorted := h.sorted
  earlier := h.earlier
  before := h.before
  later := h.later

/-- Time passes for all runs at once. -/
theorem passes_wake (ordered : s.alarms.Ordered) (numeric : Alarms.Numeric s.alarms.heap) :
    (∀ id, ∃ rung, s.Passes id s.wake rung) ∧ s.wake.alarms.Ordered := by
  obtain ⟨hordered, hnumeric⟩ := Alarms.ordered_cleared ordered numeric
  obtain ⟨hactive, hcount⟩ := Alarms.active_cleared s.alarms
  have hring : ∀ s₁ : Scene σ, s₁.alarms = s.alarms.cleared → s₁.turns = s.turns →
      (s.turns ≠ [] → s₁.world.timer = s.world.timer) →
      (∀ id, ∃ rung, s.Passes id s₁.ring rung) ∧ s₁.ring.alarms.Ordered := by
    intro s₁ halarms hturns htimer
    obtain ⟨hpasses, hrest⟩ := passes_ring (s := s₁) (halarms ▸ hordered) (halarms ▸ hnumeric)
    refine ⟨fun id => ?_, hrest⟩
    obtain ⟨rung, hrung⟩ := hpasses id
    exact ⟨rung, hrung.of_eq hturns (by rw [halarms, hactive]) (by rw [halarms, hcount]) htimer⟩
  unfold wake
  simp only
  split
  · rename_i hempty
    exact hring _ (by simp) (by simp) fun hne => absurd (List.isEmpty_iff.mp hempty) hne
  · exact hring _ rfl rfl fun _ => rfl

end Scene

/-! ## What a turn of a run leaves alone -/

namespace Lane

open Activity

variable {a : Adapter τ σ} {P : σ → Prop} {m : Replies} {id : LaneId} {s s' : Scene σ} {st : Stint τ}

theorem now_timer_advance (a : Adapter τ σ) {α : Type} (t : Activity α) (w : World σ) :
    (t.advance (World.reply a) w).2.timer = w.timer ∧ (t.advance (World.reply a) w).2.now = w.now ∧
      (t.advance (World.reply a) w).2.destinations = w.destinations := by
  induction t generalizing w with
  | done => exact ⟨rfl, rfl, rfl⟩
  | ask q next ih =>
    cases q with
    | turn | call | wait => exact ⟨rfl, rfl, rfl⟩
    | now | drawId | draw | append | update | discard => exact ih _ _

theorem beside_beginStep (limit : Binary64) (call : Option (DestinationRef × Request))
    (next : Option Answer → Activity LaneResult) (s : Scene σ) :
    s.Beside P id (beginStep id limit call next s : Lane τ × Scene σ).2 := by
  unfold beginStep
  split
  · exact Scene.beside_callFor_own s .work
  · exact (Scene.beside_setAlarm s limit .limit).trans (Scene.beside_callFor_own _ .work)

theorem beside_goOn (a : Adapter τ σ) (t : Activity LaneResult) (s : Scene σ) :
    s.Beside P id (goOn a id t s).2 := by
  obtain ⟨timer, now, destinations⟩ := now_timer_advance a t s.world
  have hworld : s.Beside P id { s with world := (t.advance (World.reply a) s.world).2 } :=
    Scene.beside_world s timer now fun h => destinations ▸ h
  refine hworld.trans ?_
  unfold goOn
  simp only
  split
  · exact Scene.beside_callFor _ fun _ _ => rfl
  · exact beside_beginStep _ _ _ _
  · exact beside_beginStep _ _ _ _
  · split
    · exact Scene.beside_callFor_own _ .goOn
    · exact Scene.beside_setAlarm _ _ .rested

theorem beside_endWork (answer : Option Answer) (st : Stint τ) (s : Scene σ) :
    s.Beside P id (endWork id answer st s).2 := Scene.beside_callFor_own s _

theorem beside_fetchAnswer (gives : a.Gives m P) (pending : τ) (st : Stint τ) (s : Scene σ) :
    s.Beside P id (fetchAnswer a id pending st s).2 := by
  have hfetch : s.Beside P id { s with world := (s.world.fetch a pending).2 } :=
    Scene.beside_world s rfl rfl fun h => gives.fetched h pending
  exact hfetch.trans (beside_endWork _ st _)

theorem beside_beginWork (gives : a.Gives m P) (call : Option (DestinationRef × Request))
    (st : Stint τ) (s : Scene σ) : s.Beside P id (beginWork a id call st s).2 := by
  cases call with
  | none => exact beside_endWork none st s
  | some call =>
    obtain ⟨ref, request⟩ := call
    have hcall : s.Beside P id { s with world := (s.world.call a ref request).2 } :=
      Scene.beside_world s rfl rfl fun h => gives.called h ref request
    refine hcall.trans ?_
    unfold beginWork
    simp only
    split
    · exact beside_fetchAnswer gives _ st _
    · split
      · exact Scene.beside_callFor_own _ .work
      · exact Scene.beside_setAlarm _ _ .rested

theorem beside_stepTurn (gives : a.Gives m P) (owns : st.Owns id s) (cue : Cue) :
    s.Beside P id (stepTurn a id st cue s).2 := by
  have hnotice : s.Beside P id (notice id st s).2 := by
    unfold notice
    split
    · exact .refl s
    · exact Scene.beside_callFor_own s .goOn
  cases cue with
  | goOn => exact .refl s
  | limit => exact hnotice
  | report limit =>
    unfold stepTurn
    simp only
    split
    · exact hnotice
    · exact .refl s
  | rested =>
    unfold stepTurn endRest
    simp only
    split
    · exact Scene.beside_callFor_own s .work
    · exact .refl s
  | work =>
    unfold stepTurn doWork
    simp only
    split
    · rename_i number pending _ hwork
      exact (Scene.beside_callOff (owns.rested number pending hwork)).trans (beside_endWork none st _)
    · exact beside_endWork none st s
    · exact beside_beginWork gives _ st s
    · exact beside_fetchAnswer gives _ st s
    · exact .refl s

/-- A run that has a turn changes nothing that another run sees. -/
theorem beside_act (gives : a.Gives m P) {l : Lane τ} (owns : l.Owns id s) (cue : Cue) :
    s.Beside P id (l.act a id cue s).2 := by
  cases l with
  | ended r =>
    have hact : act a id cue (.ended r) s = (.ended r, s) := by cases cue <;> rfl
    rw [hact]
    exact .refl s
  | going t =>
    cases cue with
    | goOn => exact beside_goOn a t s
    | rested => exact Scene.beside_callFor_own s .goOn
    | work | report | limit => exact .refl s
  | stepping st next =>
    have hstep : ∀ cue, s.Beside P id (stepTurn a id st cue s).2 := beside_stepTurn gives owns
    cases cue with
    | work => exact hstep .work
    | rested => exact hstep .rested
    | report limit => exact hstep (.report limit)
    | limit => exact hstep .limit
    | goOn =>
      unfold act look
      simp only
      split
      · refine Scene.Beside.trans ?_ (beside_goOn a _ _)
        split
        · rename_i number hlimit
          exact Scene.beside_callOff (Stint.Owns.limit owns number hlimit)
        · exact .refl s
      · unfold giveUp
        split
        · exact .refl s
        · simp only
          split
          · exact Scene.beside_callFor_own s .work
          · exact .refl s

end Lane
end Conveyor.Worker
