import Conveyor.Proofs.Worker.Ending
import Conveyor.Proofs.Worker.Pace
import Conveyor.Proofs.Worker.Telling

/-!
# Runs in company

The runs of all records under way keep their pace in every turn of a floor and as time passes, as long
as it can be told of every step whether it ends in time. So a run that has ended in company has come
to what it can come to alone.
-/

namespace Conveyor.Worker

variable {τ σ : Type} {ad : Adapter τ σ} {s : Settings} {a : Arena} {m : Replies} {P : σ → Prop}
  {now : Moment} {runs : List (Activity LaneResult)}

instance (h : Array (Alarm Turn)) : Decidable (Alarms.Numeric h) :=
  inferInstanceAs (Decidable (∀ x ∈ h, x.wake.isNan = false))

/-- All alarms are set for times that are numbers, and of every step it can be told whether it ends in
time. -/
structure Floor.Decisive (f : Floor τ σ) : Prop where
  numeric : Alarms.Numeric f.scene.alarms.heap
  lanes : ∀ j ∈ f.jobs, ∀ l ∈ j.lanes, l.Decisive f.scene

instance (f : Floor τ σ) : Decidable f.Decisive :=
  decidable_of_iff (Alarms.Numeric f.scene.alarms.heap ∧ ∀ j ∈ f.jobs, ∀ l ∈ j.lanes,
    l.Decisive f.scene) ⟨fun h => ⟨h.1, h.2⟩, fun h => ⟨h.numeric, h.lanes⟩⟩

/-! ## Records -/

/-- All runs of a record keep their pace. -/
structure Job.Paced (ad : Adapter τ σ) (m : Replies) (P : σ → Prop) (now : Moment)
    (runs : List (Activity LaneResult)) (scene : Scene σ) (j : Job τ) : Prop where
  length : j.lanes.length = runs.length
  lane : ∀ (i : Nat) (run : Activity LaneResult) (l : Lane τ), runs[i]? = some run →
    j.lanes[i]? = some l → l.Paced ad m P now run ⟨j.id, i⟩ scene

/-- A run that has ended, with a result that it can end with alone. -/
def Came (m : Replies) (now : Moment) (run : Activity LaneResult) (l : Lane τ) : Prop :=
  ∃ r, l = .ended r ∧ run.Ends m now r

namespace Job

variable {scene scene' : Scene σ} {j j' : Job τ}

theorem Paced.congr (h : j.Paced ad m P now runs scene) (id : j'.id = j.id)
    (lanes : j'.lanes = j.lanes) (timer : scene'.world.timer = scene.world.timer)
    (count : scene.alarms.count ≤ scene'.alarms.count)
    (cues : ∀ i < j.lanes.length, scene'.cues ⟨j.id, i⟩ = scene.cues ⟨j.id, i⟩)
    (bells : ∀ i < j.lanes.length, scene'.bells ⟨j.id, i⟩ = scene.bells ⟨j.id, i⟩) :
    j'.Paced ad m P now runs scene' where
  length := lanes ▸ h.length
  lane i run l hrun hl := by
    rw [lanes] at hl
    rw [id]
    have hi := (List.getElem?_eq_some_iff.mp hl).1
    exact (h.lane i run l hrun hl).congr (cues i hi) (bells i hi) timer count

/-- What the runs of a record have come to when they have all ended. -/
theorem Paced.came (h : j.Paced ad m P now runs scene) (ended : ∀ l ∈ j.lanes, l.isEnded = true) :
    List.Forall₂ (Came m now) runs j.lanes := by
  refine List.forall₂_iff_get.mpr ⟨h.length.symm, fun i hi hk => ?_⟩
  have hlane := h.lane i _ _ (List.getElem?_eq_getElem hi) (List.getElem?_eq_getElem hk)
  have hended := ended _ (List.getElem_mem hk)
  rw [List.get_eq_getElem, List.get_eq_getElem]
  generalize j.lanes[i] = l at hlane hended ⊢
  cases hlane with
  | going | stepping => cases hended
  | ended ends => exact ⟨_, rfl, ends⟩

end Job

/-! ## The floor -/

namespace Floor

variable {f f' g : Floor τ σ} {t : Turn} {rest : List Turn} {width : Nat} {j j' : Job τ}

/-- All runs keep their pace, and those of records that have been dealt with have come to what they
can come to alone. -/
structure Paced (ad : Adapter τ σ) (m : Replies) (P : σ → Prop) (now : Moment)
    (runs : List (Activity LaneResult)) (f : Floor τ σ) : Prop where
  ordered : f.scene.alarms.Ordered
  here : P f.scene.world.destinations
  clock : f.scene.world.now = now
  jobs : ∀ j ∈ f.jobs, j.Paced ad m P now runs f.scene
  handled : ∀ h ∈ f.handled, ∃ lanes : List (Lane τ), h.outcome = .ok (resultsOf lanes) ∧
    List.Forall₂ (Came m now) runs lanes

/-- Time passes for all runs. -/
theorem Paced.wake (hf : f.Paced ad m P now runs) (decisive : f.Decisive) :
    f.wake.Paced ad m P now runs := by
  obtain ⟨hpasses, hordered⟩ := Scene.passes_wake hf.ordered decisive.numeric
  obtain ⟨timer, hworld⟩ := f.scene.wake_spec.2.2.2
  refine ⟨hordered, ?_, ?_, fun j hj => ⟨(hf.jobs j hj).length, fun i run l hrun hl => ?_⟩, hf.handled⟩
  · show P f.scene.wake.world.destinations
    rw [hworld]
    exact hf.here
  · show f.scene.wake.world.now = now
    rw [hworld]
    exact hf.clock
  · obtain ⟨rung, hrung⟩ := hpasses ⟨j.id, i⟩
    exact ((hf.jobs j hj).lane i run l hrun hl).passes hrung

/-- What a record waits for is not changed by a turn that is not one of its runs'. -/
theorem cues_popped {id : LaneId} (h : f.scene.turns = t :: rest) (other : t.cue? id = none) :
    (f.popped rest).scene.cues id = f.scene.cues id := by
  unfold Scene.cues
  rw [h]
  exact (List.filterMap_cons_none other).symm

/-- A turn that is called for and that is not one of a run does not matter to the runs. -/
theorem cues_callFor_other (other : ∀ id, t.cue? id = none) {scene : Scene σ} (id : LaneId) :
    (scene.callFor t).cues id = scene.cues id := by
  rw [Scene.cues_callFor, other]
  exact List.append_nil _

/-- Nothing happens to the runs; some records that they belong to have been dealt with. -/
theorem Paced.undisturbed (hf : f.Paced ad m P now runs) (h : f.scene.turns = t :: rest)
    (others : ∀ j ∈ f.jobs, ∀ i < j.lanes.length, t.cue? ⟨j.id, i⟩ = none)
    (world : f'.scene.world = f.scene.world) (alarms : f'.scene.alarms = f.scene.alarms)
    (cues : ∀ id, f'.scene.cues id = (f.popped rest).scene.cues id)
    (jobs : ∀ k ∈ f'.jobs, ∃ j ∈ f.jobs, k.id = j.id ∧ k.lanes = j.lanes)
    (handled : ∀ x ∈ f'.handled, x ∈ f.handled ∨
      ∃ j ∈ f.jobs, x.outcome = .ok j.results ∧ ∀ l ∈ j.lanes, l.isEnded = true) :
    f'.Paced ad m P now runs where
  ordered := by
    rw [alarms]
    exact hf.ordered
  here := by
    rw [world]
    exact hf.here
  clock := by
    rw [world]
    exact hf.clock
  jobs k hk := by
    obtain ⟨j, hj, hid, hlanes⟩ := jobs k hk
    refine (hf.jobs j hj).congr hid hlanes (by rw [world]) (by rw [alarms]) (fun i hi => ?_)
      fun i _ => ?_
    · rw [cues, cues_popped h (others j hj i hi)]
    · rw [Scene.bells, Scene.bells, alarms]
  handled x hx := by
    rcases handled x hx with hx | ⟨j, hj, hout, hended⟩
    · exact hf.handled x hx
    · exact ⟨j.lanes, hout, (hf.jobs j hj).came hended⟩

/-- A run has a turn, and the others are left alone. -/
theorem Paced.lane {i : Nat} {l : Lane τ} {cue : Cue} (gives : ad.Gives m P) (steady : f.Steady)
    (hf : f.Paced ad m P now runs) (h : f.scene.turns = .lane ⟨j.id, i⟩ cue :: rest) (hj : j ∈ f.jobs)
    (hl : j.lanes[i]? = some l)
    (decisive : (setJob { j with
        lanes := j.lanes.set i (l.act ad ⟨j.id, i⟩ cue (f.popped rest).scene).1 }
      { f with scene := (l.act ad ⟨j.id, i⟩ cue (f.popped rest).scene).2 }).Decisive) :
    (setJob { j with lanes := j.lanes.set i (l.act ad ⟨j.id, i⟩ cue (f.popped rest).scene).1 }
      { f with scene := (l.act ad ⟨j.id, i⟩ cue (f.popped rest).scene).2 }).Paced ad m P now runs := by
  obtain rfl := hf.clock
  have howns : l.Owns ⟨j.id, i⟩ (f.popped rest).scene :=
    (steady.owns j hj i l hl).changes (changes_popped h)
  have hhere : P (f.popped rest).scene.world.destinations := hf.here
  have hbeside := Lane.beside_act gives howns cue
  have hscene : ({ (f.popped rest).scene with turns := .lane ⟨j.id, i⟩ cue :: rest } : Scene σ) =
      f.scene := by
    rw [← h]
    rfl
  have hother : ∀ k ∈ f.jobs, ∀ (p : Nat) (run : Activity LaneResult) (l' : Lane τ),
      runs[p]? = some run → k.lanes[p]? = some l' → (⟨j.id, i⟩ : LaneId) ≠ ⟨k.id, p⟩ →
      l'.Paced ad m P f.scene.world.now run ⟨k.id, p⟩
        (l.act ad ⟨j.id, i⟩ cue (f.popped rest).scene).2 := by
    intro k hk p run l' hrun hl' hne
    refine ((hf.jobs k hk).lane p run l' hrun hl').congr ?_ (hbeside.bells _ hne) hbeside.timer
      hbeside.count
    rw [hbeside.cues _ hne, cues_popped h (Scene.cue?_other hne cue)]
  refine ⟨hbeside.ordered hf.ordered decisive.numeric, hbeside.destinations hhere, hbeside.now,
    fun k hk => ?_, hf.handled⟩
  rcases mem_setJob hk with rfl | ⟨hk, hne⟩
  · refine ⟨(List.length_set ..).trans (hf.jobs j hj).length, fun p run l' hrun hl' => ?_⟩
    by_cases hip : i = p
    · subst hip
      have hi := (List.getElem?_eq_some_iff.mp hl).1
      rw [List.getElem?_set_self hi] at hl'
      obtain rfl := Option.some.inj hl'
      refine Lane.paced_act gives hhere howns ?_ ?_
      · rw [show (f.popped rest).scene.turns = rest from rfl, hscene]
        exact (hf.jobs j hj).lane i run l hrun hl
      · exact decisive.lanes _ hk _ (List.mem_of_getElem? (List.getElem?_set_self hi))
    · rw [List.getElem?_set_ne hip] at hl'
      exact hother j hj p run l' hrun hl' fun heq => hip (congrArg LaneId.position heq)
  · refine ⟨(hf.jobs k hk).length, fun p run l' hrun hl' => hother k hk p run l' hrun hl' ?_⟩
    exact fun heq => hne (congrArg LaneId.job heq).symm

/-- All runs of a record get their first turn. -/
theorem turn_enter (steady : f.Steady) (h : f.scene.turns = .enter j.id :: rest) (hj : j ∈ f.jobs)
    (some_ : j.lanes ≠ []) :
    f.turn ad s a = { f with scene := { f.scene with
      turns := rest ++ j.laneIds.map fun id => .lane id .goOn } } := by
  have hjob : (f.popped rest).job? j.id = some j := by
    cases hfind : (f.popped rest).job? j.id with
    | none => exact absurd rfl (ne_of_job?_eq_none hfind hj)
    | some k =>
      obtain ⟨hk, hid⟩ := job?_eq_some hfind
      rw [List.inj_on_of_nodup_map steady.nodup hk hj hid]
  have hfold : ∀ (ids : List LaneId) (g : Floor τ σ),
      ids.foldl (fun g id => g.callFor (.lane id .goOn)) g = { g with scene := { g.scene with
        turns := g.scene.turns ++ ids.map fun id => .lane id .goOn } } := by
    intro ids
    induction ids with
    | nil =>
      intro g
      rw [List.map_nil, List.append_nil]
      rfl
    | cons id ids ih =>
      intro g
      rw [List.foldl_cons, ih, List.map_cons]
      show ({ g with scene := { g.scene with turns := (g.scene.turns ++ [_]) ++ _ } } : Floor τ σ) = _
      rw [List.append_assoc]
      rfl
  have hturn : f.turn ad s a = withJob j.id (enter ad s) (f.popped rest) := by
    unfold Floor.turn
    rw [h]
    rfl
  rw [hturn, withJob, hjob]
  show enter ad s j (f.popped rest) = _
  rw [enter, if_neg fun hnone => some_ (List.isEmpty_iff.mp hnone), hfold]
  rfl

/-- Each run of a record that enters gets one turn. -/
theorem cues_laneIds (j : Job τ) {i : Nat} (hi : i < j.lanes.length) :
    (j.laneIds.map fun id => Turn.lane id .goOn).filterMap (Turn.cue? ⟨j.id, i⟩) = [.goOn] := by
  have hrange : ∀ n, ((List.range n).map fun k => (⟨j.id, k⟩ : LaneId)).filterMap
      (fun id => (Turn.lane id .goOn).cue? ⟨j.id, i⟩) = if i < n then [.goOn] else [] := by
    intro n
    induction n with
    | zero => rfl
    | succ n ih =>
      rw [List.range_succ, List.map_append, List.filterMap_append, ih]
      by_cases hin : n = i
      · subst hin
        have hown := Scene.cue?_own ⟨j.id, n⟩ .goOn
        simp [hown]
      · have hother : (Turn.lane ⟨j.id, n⟩ .goOn).cue? ⟨j.id, i⟩ = none :=
          Scene.cue?_other (fun heq => hin (congrArg LaneId.position heq)) _
        simp only [List.map_cons, List.map_nil, List.filterMap_cons, hother, List.filterMap_nil,
          List.append_nil]
        have hiff : i < n + 1 ↔ i < n := by omega
        simp only [hiff]
  rw [List.filterMap_map]
  exact (hrange _).trans (if_pos hi)

/-- The runs of a record that enters go on. -/
theorem Paced.enter (steady : f.Steady) (hf : f.Paced ad m P now runs)
    (h : f.scene.turns = .enter j.id :: rest) (hj : j ∈ f.jobs) (some_ : j.lanes ≠ []) :
    (f.turn ad s a).Paced ad m P now runs := by
  rw [turn_enter steady h hj some_]
  refine ⟨hf.ordered, hf.here, hf.clock, fun k hk => ⟨(hf.jobs k hk).length,
    fun i run l hrun hl => ?_⟩, hf.handled⟩
  have hlane := (hf.jobs k hk).lane i run l hrun hl
  have hcues : Scene.cues ⟨k.id, i⟩ { f.scene with
      turns := rest ++ j.laneIds.map fun id => .lane id .goOn } =
      f.scene.cues ⟨k.id, i⟩ ++
        (j.laneIds.map fun id => Turn.lane id .goOn).filterMap (Turn.cue? ⟨k.id, i⟩) := by
    rw [← cues_popped h rfl]
    exact List.filterMap_append
  by_cases hkj : k = j
  · subst hkj
    obtain ⟨hquiet, hgoing⟩ := (steady.phase_popped h hj).quiet_of_enter
    obtain ⟨t, rfl⟩ := hgoing l (List.mem_of_getElem? hl)
    have hnone : ∀ cue, Turn.lane ⟨k.id, i⟩ cue ∉ f.scene.pending := fun cue hmem => by
      rw [pending_eq_popped h] at hmem
      exact hquiet i cue ((Multiset.mem_cons.mp hmem).resolve_left nofun)
    have hnocues : f.scene.cues ⟨k.id, i⟩ = [] := List.eq_nil_iff_forall_not_mem.mpr fun cue hcue =>
      hnone cue (Scene.mem_pending_of_mem_cues hcue)
    have hnobells : f.scene.bells ⟨k.id, i⟩ = 0 := Multiset.eq_zero_of_forall_notMem fun b hb =>
      hnone b.cue (Scene.mem_pending_of_mem_bells hb)
    rw [cues_laneIds k (List.getElem?_eq_some_iff.mp hl).1, hnocues] at hcues
    exact hlane.enter hcues hnobells
  · refine hlane.congr ?_ rfl rfl (Nat.le_refl _)
    rw [hcues, List.filterMap_eq_nil_iff.mpr fun t ht => ?_, List.append_nil]
    obtain ⟨id, hid, rfl⟩ := List.mem_map.mp ht
    obtain ⟨p, -, rfl⟩ := List.mem_map.mp hid
    exact Scene.cue?_other (fun heq => hkj (List.inj_on_of_nodup_map steady.nodup hk hj
      (congrArg LaneId.job heq).symm)) _

/-- A turn keeps the pace of all runs. -/
theorem Paced.turn (gives : ad.Gives m P) (some_ : runs ≠ []) (ending : f.Ending width)
    (hf : f.Paced ad m P now runs) (decisive : (f.turn ad s a).Decisive) :
    (f.turn ad s a).Paced ad m P now runs := by
  cases h : f.scene.turns with
  | nil =>
    rw [turn_eq_self h]
    exact hf
  | cons t rest =>
    obtain ⟨htake, hpoll, hwaiting⟩ := ending.quiet
    have hmem := mem_pending h
    have hself : ∀ k ∈ f.jobs, ∃ j ∈ f.jobs, k.id = j.id ∧ k.lanes = j.lanes :=
      fun k hk => ⟨k, hk, rfl, rfl⟩
    have turned : Turned ad s a f rest t (f.turn ad s a) := turn_cases h
    generalize hturn : f.turn ad s a = f' at turned decisive ⊢
    cases turned with
    | takes => exact absurd (Multiset.count_eq_zero.mp htake) (not_not.mpr hmem)
    | polls => exact absurd (Multiset.count_eq_zero.mp hpoll) (not_not.mpr hmem)
    | @late _ id about missing =>
      refine hf.undisturbed h (fun j hj i _ => ?_) rfl rfl (fun _ => rfl) hself fun _ hx => .inl hx
      refine Option.eq_none_iff_forall_ne_some.mpr fun cue hcue => missing j hj ?_
      rw [Scene.eq_of_cue? hcue] at about
      exact Option.some.inj about
    | @astray j i cue hj beyond =>
      refine hf.undisturbed h (fun k hk p hp => ?_) rfl rfl (fun _ => rfl) hself fun _ hx => .inl hx
      refine Scene.cue?_other (fun heq => ?_) cue
      obtain rfl := List.inj_on_of_nodup_map ending.nodup hj hk (congrArg LaneId.job heq)
      obtain rfl : i = p := congrArg LaneId.position heq
      rw [List.getElem?_eq_none_iff] at beyond
      exact absurd hp (Nat.not_lt.mpr beyond)
    | @enters j scene hj some_ world changes =>
      rw [← hturn]
      exact hf.enter ending.toSteady h hj some_
    | @drops j hj none_ =>
      -- every record has runs
      refine absurd (List.eq_nil_of_length_eq_zero ?_) some_
      rw [← (hf.jobs j hj).length, none_]
      rfl
    | lane hj hl => exact hf.lane gives ending.toSteady h hj hl decisive
    | @tallies j hj =>
      have hset : ∀ k ∈ (f.setJob { j with counted := j.counted + 1 }).jobs,
          ∃ j ∈ f.jobs, k.id = j.id ∧ k.lanes = j.lanes := fun k hk => by
        rcases mem_setJob hk with rfl | ⟨hk, -⟩
        · exact ⟨j, hj, rfl, rfl⟩
        · exact ⟨k, hk, rfl, rfl⟩
      unfold tally
      simp only
      split
      · exact hf.undisturbed h (fun _ _ _ _ => rfl) rfl rfl (cues_callFor_other fun _ => rfl) hset
          fun _ hx => .inl hx
      · exact hf.undisturbed h (fun _ _ _ _ => rfl) rfl rfl (fun _ => rfl) hset fun _ hx => .inl hx
    | @settles j hj =>
      obtain ⟨-, -, hended⟩ := (ending.phase_popped h hj).open_of_settle
      refine hf.undisturbed h (fun _ _ _ _ => rfl) rfl rfl (cues_callFor_other fun _ => rfl)
        (fun k hk => ?_) fun x hx => ?_
      · rcases mem_setJob hk with rfl | ⟨hk, -⟩
        · exact ⟨j, hj, rfl, rfl⟩
        · exact ⟨k, hk, rfl, rfl⟩
      · rcases List.mem_append.mp hx with hx | hx
        · exact .inl hx
        · obtain rfl := List.mem_singleton.mp hx
          exact .inr ⟨j, hj, rfl, hended⟩
    | @releases j hj =>
      obtain ⟨hscene, -⟩ := release_of_none j (f.popped rest) hwaiting
      refine hf.undisturbed h (fun _ _ _ _ => rfl) (by rw [hscene]; rfl) (by rw [hscene]; rfl)
        (fun _ => by rw [hscene]) (fun k hk => ?_) fun x hx => ?_
      · rw [jobs_release] at hk
        exact ⟨k, List.mem_of_mem_filter hk, rfl, rfl⟩
      · rw [handled_release] at hx
        exact .inl hx

/-! ## Turn by turn -/

/-- The turns of a round keep the pace of all runs. -/
theorem Paced.turns (gives : ad.Gives m P) (some_ : runs ≠ []) (ending : f.Ending width)
    (hf : f.Paced ad m P now runs) (n : Nat) (decisive : ∀ k ≤ n, (f.turns ad s a k).Decisive) :
    (f.turns ad s a n).Paced ad m P now runs := by
  induction n generalizing f with
  | zero => exact hf
  | succ n ih =>
    have hturn := hf.turn gives some_ ending (decisive 1 (Nat.succ_le_succ (Nat.zero_le n)))
    exact ih ending.turn.1 hturn fun k hk => decisive (k + 1) (Nat.succ_le_succ hk)

/-- In every turn, until nothing is left to do, it can be told of every step whether it ends in
time. -/
def AlwaysDecisive (ad : Adapter τ σ) (s : Settings) (a : Arena) (f : Floor τ σ) : Prop :=
  ∀ n, (∀ m ≤ n, ((fun g => g.round ad s a)^[m] f).isIdle = false) →
    ∀ k ≤ ((fun g => g.round ad s a)^[n] f).wake.scene.turns.length,
      (((fun g => g.round ad s a)^[n] f).wake.turns ad s a k).Decisive

theorem AlwaysDecisive.round (h : f.AlwaysDecisive ad s a) (busy : f.isIdle = false) :
    (f.round ad s a).AlwaysDecisive ad s a := by
  intro n hn
  refine h (n + 1) fun m hm => ?_
  cases m with
  | zero => exact busy
  | succ m => exact hn m (Nat.le_of_succ_le_succ hm)

/-- It is enough to see to the rounds up to one after which nothing is left to do. -/
theorem alwaysDecisive_of_idle {n : Nat} (idle : ((fun g => g.round ad s a)^[n] f).isIdle = true)
    (before : ∀ m < n, ∀ k ≤ ((fun g => g.round ad s a)^[m] f).wake.scene.turns.length,
      (((fun g => g.round ad s a)^[m] f).wake.turns ad s a k).Decisive) : f.AlwaysDecisive ad s a := by
  intro m hm
  rcases Nat.lt_or_ge m n with hlt | hge
  · exact before m hlt
  · rw [hm n hge] at idle
    cases idle

/-- When a worker returns, its runs have kept their pace. -/
theorem Paced.run (gives : ad.Gives m P) (some_ : runs ≠ []) (h : f.run ad s a = some g)
    (ending : f.Ending width) (hf : f.Paced ad m P now runs) (decisive : f.Decisive)
    (always : f.AlwaysDecisive ad s a) : g.Paced ad m P now runs := by
  refine run.partial_correctness ad s a (fun f g => f.Ending width → f.Paced ad m P now runs →
    f.Decisive → f.AlwaysDecisive ad s a → g.Paced ad m P now runs) ?_ f g h ending hf decisive always
  intro run ih f g hrun ending hf decisive always
  split at hrun
  · obtain rfl := Option.some.inj hrun
    exact hf
  · rename_i hbusy
    have hbusy := Bool.eq_false_iff.mpr hbusy
    have hturns : ∀ k ≤ f.wake.scene.turns.length, (f.wake.turns ad s a k).Decisive :=
      always 0 fun m hm => by
        rw [Nat.le_zero.mp hm]
        exact hbusy
    exact ih _ _ hrun (ending.wake.turns _).1
      ((hf.wake decisive).turns gives some_ ending.wake _ hturns) (hturns _ (Nat.le_refl _))
      (always.round hbusy)

end Floor
end Conveyor.Worker
