import Conveyor.Proofs.Arena
import Conveyor.Proofs.Worker.Accounts
import Conveyor.Proofs.Worker.Ending
import Conveyor.Proofs.Worker.Telling

/-!
# What becomes of a record

A record is run through all pipelines of its source, and each run comes to a result and an entry in
the log if its entry can be opened. A run whose entry would expire later than there are dates is lost.
-/

namespace Conveyor

open Activity

namespace Worker

variable {τ σ : Type} {ad : Adapter τ σ} {s : Settings} {a : Arena}

/-- A run that has ended does nothing more. -/
theorem Lane.act_of_isEnded {l : Lane τ} (h : l.isEnded = true) (id : LaneId) (cue : Cue)
    (scene : Scene σ) : l.act ad id cue scene = (l, scene) := by
  cases l with
  | going t => cases h
  | stepping st next => cases h
  | ended out => cases cue <;> rfl

namespace Floor

variable {f f' g : Floor τ σ} {t : Turn} {rest : List Turn} {width : Nat} {j : Job τ}
  {runs : List (Activity LaneResult)} {r : InboundRecord} {w : World σ} {lanes : List (Lane τ)}

/-- One record is under way, by runs that have got on, or it has been dealt with. -/
structure Carries (runs : List (Activity LaneResult)) (r : InboundRecord) (w : World σ)
    (lanes : List (Lane τ)) (f : Floor τ σ) : Prop where
  told : ∃ all, Told runs w all lanes f.scene.world
  only : ∀ j ∈ f.jobs, j.id = 0 ∧ j.record = r ∧ j.lanes = lanes
  stage : (f.handled = [] ∧ ∃ j ∈ f.jobs, j.outcome = none) ∨
    ((∀ l ∈ lanes, l.isEnded = true) ∧ f.handled = [⟨0, r, .ok (resultsOf lanes)⟩] ∧
      ∀ j ∈ f.jobs, j.outcome ≠ none)

/-- A record that is replaced by one that has been dealt with no more or less. -/
theorem Carries.replace (hf : f.Carries runs r w lanes) (j' : Job τ) (scene : Scene σ)
    {lanes' : List (Lane τ)} (nodup : (f.jobs.map Job.id).Nodup) (hj : j ∈ f.jobs)
    (id : j'.id = j.id) (record : j'.record = j.record) (same : j'.lanes = lanes')
    (outcome : j'.outcome = j.outcome) (told : ∃ all, Told runs w all lanes' scene.world)
    (kept : (∀ l ∈ lanes, l.isEnded = true) → lanes' = lanes) :
    Carries runs r w lanes' (setJob j' { f with scene }) where
  told := told
  only k hk := by
    rcases mem_setJob hk with rfl | ⟨hk, hne⟩
    · exact ⟨id.trans (hf.only j hj).1, record.trans (hf.only j hj).2.1, same⟩
    · exact absurd ((hf.only k hk).1.trans (id.trans (hf.only j hj).1).symm) hne
  stage := by
    rcases hf.stage with ⟨hnone, k, hk, hopen⟩ | ⟨hended, hhandled, hclosed⟩
    · refine .inl ⟨hnone, j', mem_setJob_self (f := f) hj id, ?_⟩
      have hkj : k = j :=
        List.inj_on_of_nodup_map nodup hk hj ((hf.only k hk).1.trans (hf.only j hj).1.symm)
      rw [outcome, ← hkj, hopen]
    · rw [kept hended]
      refine .inr ⟨hended, hhandled, fun k hk => ?_⟩
      rcases mem_setJob hk with rfl | ⟨hk, -⟩
      · rw [outcome]
        exact hclosed j hj
      · exact hclosed k hk

/-- One of the runs has a turn. -/
theorem Carries.lane {i : Nat} {l : Lane τ} (hf : f.Carries runs r w lanes)
    (nodup : (f.jobs.map Job.id).Nodup) (hj : j ∈ f.jobs) (hl : j.lanes[i]? = some l) (cue : Cue) :
    ∃ lanes', Carries runs r w lanes'
      (setJob { j with
          lanes := j.lanes.set i (l.act ad ⟨j.id, i⟩ cue (f.popped rest).scene).1 }
        { f with scene := (l.act ad ⟨j.id, i⟩ cue (f.popped rest).scene).2 }) := by
  obtain ⟨all, told⟩ := hf.told
  have hsame : j.lanes = lanes := (hf.only j hj).2.2
  have hlanes : lanes[i]? = some l := hsame ▸ hl
  refine ⟨_, hf.replace { j with lanes := j.lanes.set i _ } _ nodup hj rfl rfl rfl rfl ?_
    fun hended => ?_⟩
  · rw [hsame]
    exact told.act (s := (f.popped rest).scene) ad ⟨j.id, i⟩ cue hlanes
  · -- a run that has ended stays as it is
    rw [Lane.act_of_isEnded (hended l (List.mem_of_getElem? hlanes)), hsame]
    obtain ⟨hi, rfl⟩ := List.getElem?_eq_some_iff.mp hlanes
    exact List.set_getElem_self hi

/-- The end of a run is counted. -/
theorem Carries.tally (hf : f.Carries runs r w lanes) (nodup : (f.jobs.map Job.id).Nodup)
    (hj : j ∈ f.jobs) : (tally j (f.popped rest)).Carries runs r w lanes := by
  have hset := hf.replace { j with counted := j.counted + 1 } (f.popped rest).scene nodup hj rfl rfl
    (hf.only j hj).2.2 rfl hf.told fun _ => rfl
  unfold Floor.tally
  simp only
  split
  · exact ⟨hset.told, hset.only, hset.stage⟩
  · exact hset

/-- The record is dealt with when all its runs have ended. -/
theorem Carries.settle (hf : f.Carries runs r w lanes) (hj : j ∈ f.jobs) (open_ : j.outcome = none)
    (ended : ∀ l ∈ j.lanes, l.isEnded = true) :
    (noteHandled j (.ok j.results) (f.popped rest)).Carries runs r w lanes := by
  obtain ⟨hid, hrecord, hlanes⟩ := hf.only j hj
  refine ⟨hf.told, fun k hk => ?_, .inr ⟨hlanes ▸ ended, ?_, fun k hk => ?_⟩⟩
  · rcases mem_setJob hk with rfl | ⟨hk, -⟩
    · exact ⟨hid, hrecord, hlanes⟩
    · exact hf.only k hk
  · have hnone : f.handled = [] := by
      rcases hf.stage with ⟨hnone, -⟩ | ⟨-, -, hclosed⟩
      · exact hnone
      · exact absurd open_ (hclosed j hj)
    show f.handled ++ [⟨j.id, j.record, .ok (resultsOf j.lanes)⟩] = _
    rw [hnone, hid, hrecord, hlanes]
    rfl
  · rcases mem_setJob hk with rfl | ⟨hk, hne⟩
    · nofun
    · exact absurd ((hf.only k hk).1.trans hid.symm) hne

/-- The record leaves when it has been dealt with. -/
theorem Carries.release (hf : f.Carries runs r w lanes) (nodup : (f.jobs.map Job.id).Nodup)
    (hj : j ∈ f.jobs) (closed : j.outcome ≠ none) (free : f.intake.waiting = none) :
    (release j (f.popped rest)).Carries runs r w lanes := by
  obtain ⟨hscene, -⟩ := release_of_none j (f.popped rest) free
  have hjobs : ∀ k ∈ (Floor.release j (f.popped rest)).jobs, k ∈ f.jobs := by
    intro k hk
    rw [jobs_release] at hk
    exact List.mem_of_mem_filter hk
  refine ⟨?_, fun k hk => hf.only k (hjobs k hk), ?_⟩
  · rw [hscene]
    exact hf.told
  · rcases hf.stage with ⟨-, k, hk, hopen⟩ | ⟨hended, hhandled, hall⟩
    · have hkj : k = j :=
        List.inj_on_of_nodup_map nodup hk hj ((hf.only k hk).1.trans (hf.only j hj).1.symm)
      exact absurd (hkj ▸ hopen) closed
    · rw [handled_release]
      exact .inr ⟨hended, hhandled, fun k hk => hall k (hjobs k hk)⟩

theorem Carries.turned (some_ : runs ≠ []) (ending : f.Ending width) (hf : f.Carries runs r w lanes)
    (h : f.scene.turns = t :: rest) (turned : Turned ad s a f rest t f') :
    ∃ lanes', f'.Carries runs r w lanes' := by
  obtain ⟨htake, hpoll, hwaiting⟩ := ending.quiet
  have hmem := mem_pending h
  obtain ⟨all, told⟩ := hf.told
  cases turned with
  | takes => exact absurd (Multiset.count_eq_zero.mp htake) (not_not.mpr hmem)
  | polls => exact absurd (Multiset.count_eq_zero.mp hpoll) (not_not.mpr hmem)
  | late | astray => exact ⟨lanes, ⟨hf.told, hf.only, hf.stage⟩⟩
  | @enters j scene hj some_ world changes =>
    refine ⟨lanes, ⟨⟨all, ?_⟩, hf.only, hf.stage⟩⟩
    show Told runs w all lanes scene.world
    rw [world]
    exact told
  | @drops j hj none_ =>
    -- the record has runs
    refine absurd ?_ some_
    have hlength := told.length
    rw [← (hf.only j hj).2.2, none_] at hlength
    exact List.eq_nil_of_length_eq_zero hlength.symm
  | lane hj hl => exact hf.lane ending.nodup hj hl _
  | tallies hj => exact ⟨lanes, hf.tally ending.nodup hj⟩
  | @settles j hj =>
    obtain ⟨hopen, -, hended⟩ := (ending.phase_popped h hj).open_of_settle
    exact ⟨lanes, hf.settle hj hopen hended⟩
  | @releases j hj =>
    exact ⟨lanes, hf.release ending.nodup hj (ending.phase_popped h hj).closed_of_release hwaiting⟩

/-- Whatever the floor comes to, it carries the record. -/
theorem Reached.carries (h : Reached ad s a f g) (some_ : runs ≠ []) (ending : f.Ending width)
    (hf : f.Carries runs r w lanes) : ∃ lanes', g.Carries runs r w lanes' := by
  refine (h.induct (motive := fun g => g.Ending width ∧ ∃ lanes', g.Carries runs r w lanes')
    ⟨ending, lanes, hf⟩ ?_ ?_).2
  · rintro g ⟨hg, lanes', hcarries⟩
    obtain ⟨all, told⟩ := hcarries.told
    obtain ⟨timer, hworld⟩ := g.scene.wake_spec.2.2.2
    refine ⟨⟨hg.toSound.wake, hg.closed, hg.width_le, hg.bounded⟩, lanes', ⟨⟨all, ?_⟩, hcarries.only,
      hcarries.stage⟩⟩
    show Told runs w all lanes' g.scene.wake.world
    rw [hworld]
    exact told.congr rfl rfl rfl
  · rintro g ⟨hg, lanes', hcarries⟩
    refine ⟨hg.turn.1, ?_⟩
    cases hturns : g.scene.turns with
    | nil =>
      rw [turn_eq_self hturns]
      exact ⟨lanes', hcarries⟩
    | cons t rest => exact hcarries.turned some_ hg hturns (turn_cases hturns)

end Floor

/-! ## Handling a record -/

variable (ad : Adapter τ σ) (s : Settings) (a : Arena) (r : InboundRecord) (w : World σ)

/-- The floor with the record that is handled. -/
def handling : Floor τ σ := Floor.takeOn s a r { scene := { world := w } }

theorem ending_handling :
    (handling s a r w : Floor τ σ).Ending (a.forSource r.sourceKey).length := by
  have hempty : ({ scene := { world := w } } : Floor τ σ).Steady := by
    have hnone : ∀ j ∈ ([] : List (Job τ)), False := fun _ => List.not_mem_nil
    refine ⟨?_, List.nodup_nil, fun j hj => (hnone j hj).elim, fun t ht => ?_,
      fun j hj => (hnone j hj).elim, fun j hj => (hnone j hj).elim⟩
    · exact fun x hx => absurd hx (Multiset.notMem_zero x)
    · exact absurd ht (Multiset.notMem_zero t)
  have hjobs : ∀ j ∈ (handling s a r w : Floor τ σ).jobs, j.lanes =
      (a.forSource r.sourceKey).map fun pw => .going (runOf s r pw) := by
    intro j hj
    obtain rfl := List.mem_singleton.mp hj
    rfl
  refine ⟨⟨hempty.takeOn r, ?_, Nat.zero_le _⟩, rfl, fun j hj => ?_, fun j hj l hl => ?_⟩
  · show Multiset.count _ (Floor.takeOn _ _ _ _).scene.pending +
      Multiset.count _ (Floor.takeOn _ _ _ _).scene.pending + 0 = 0
    rw [Floor.pending_takeOn]
    rfl
  · rw [hjobs j hj, List.length_map]
  · rw [hjobs j hj] at hl
    obtain ⟨pw, -, rfl⟩ := List.mem_map.mp hl
    exact Run.exists_within_run s.executor true pw.1 r (some pw.2)

/-- A record that some pipelines take is run through all of them. Each run comes to a result, and to
an entry of its own in the log, if its entry can be opened. -/
theorem handle_of_takers (some_ : a.forSource r.sourceKey ≠ []) (orderly : w.Orderly)
    (timely : (handling s a r w : Floor τ σ).Timely ad s a) :
    ∃ results w', handle ad s a r w = some (.ok results, w') ∧
      Logged s r w w' ((a.forSource r.sourceKey).filter (opens w.now)) results := by
  have hending := ending_handling (τ := τ) s a r w
  obtain ⟨g, hrun, -⟩ := hending.exists_run timely
  obtain ⟨hreached, hidle⟩ := Floor.reached_of_run hrun
  have hcarries : (handling s a r w : Floor τ σ).Carries
      ((a.forSource r.sourceKey).map (runOf s r)) r w
      ((a.forSource r.sourceKey).map fun pw => .going (runOf s r pw)) := by
    refine ⟨⟨[], ?_⟩, fun j hj => ?_, .inl ⟨rfl, _, List.mem_singleton_self _, rfl⟩⟩
    · have := told_going (τ := τ) ((a.forSource r.sourceKey).map (runOf s r)) w
      rwa [List.map_map] at this
    · obtain rfl := List.mem_singleton.mp hj
      exact ⟨rfl, rfl, rfl⟩
  obtain ⟨lanes, hg⟩ := hreached.carries (by simpa using some_) hending hcarries
  have hjobs : g.jobs = [] := by
    unfold Floor.isIdle at hidle
    rw [Bool.and_eq_true, List.isEmpty_iff] at hidle
    exact hidle.2
  obtain ⟨all, told⟩ := hg.told
  rcases hg.stage with ⟨-, j, hj, -⟩ | ⟨hended, hhandled, -⟩
  · rw [hjobs] at hj
    cases hj
  · refine ⟨resultsOf lanes, g.scene.world, ?_, told.logged orderly hended⟩
    unfold handle
    rw [show Floor.run ad s a (Floor.takeOn s a r { scene := { world := w } }) = some g from hrun]
    simp [hhandled]

/-- A record that no pipeline takes is dropped. -/
theorem handle_of_none (none_ : a.forSource r.sourceKey = []) :
    handle ad s a r w = some (w.carryOut ad (drop s r)) := by
  let entering : Floor τ σ :=
    { scene := { world := w, turns := [.enter 0] }
      jobs := [{ id := 0, record := r, lanes := [] }]
      taken := 1 }
  have hhandling : (handling s a r w : Floor τ σ) = entering := by
    unfold handling Floor.takeOn
    rw [none_]
    rfl
  let leaving : Floor τ σ := (Floor.noteHandled { id := 0, record := r, lanes := [] }
    (w.carryOut ad (drop s r)).1
    { entering with scene := { world := (w.carryOut ad (drop s r)).2 } })
  have hfirst : entering.round ad s a = leaving := rfl
  have hlast : (leaving.round ad s a).jobs = [] ∧ (leaving.round ad s a).handled = leaving.handled ∧
      (leaving.round ad s a).scene.world = leaving.scene.world := ⟨rfl, rfl, rfl⟩
  have hrun : entering.run ad s a = some (leaving.round ad s a) := by
    have hentering : entering.isIdle = false := rfl
    have hleaving : leaving.isIdle = false := rfl
    have hidle : (leaving.round ad s a).isIdle = true := rfl
    rw [Floor.run, hentering, if_neg Bool.false_ne_true, hfirst, Floor.run, hleaving,
      if_neg Bool.false_ne_true, Floor.run, hidle, if_pos rfl]
  unfold handle
  rw [show Floor.takeOn s a r { scene := { world := w } } = entering from hhandling, hrun]
  obtain ⟨-, hhandled, hworld⟩ := hlast
  simp only [Option.bind_eq_bind, Option.bind_some, hhandled, hworld]
  rfl

/-- A record that is dropped has an entry, if that can be opened. -/
theorem log_drop (logs : s.logsDrops = true) (orderly : w.Orderly) :
    if (dropOutcome s w.now).isOk then
      ∃ until_ id, w.log.get? id = none ∧
        (w.carryOut ad (drop s r)).2.log = w.log.append (Run.droppedEntry r w.now until_ id)
    else (w.carryOut ad (drop s r)).2.log = w.log := by
  have hfollows := World.follows_carryOut ad (drop s r) w
  obtain ⟨hout, hops⟩ := course_drop (course_events _ _ _) hfollows.clock
  rw [hout, logs] at hops
  split
  · rename_i hok
    rw [if_pos ⟨rfl, hok⟩] at hops
    obtain ⟨until_, id, hops, hids⟩ := hops
    refine ⟨until_, id, ?_, by rw [hfollows.log, hops]; rfl⟩
    have hid := hfollows.ids
    rw [hids] at hid
    rw [List.head_eq_of_cons_eq hid]
    exact orderly.fresh _ (Nat.lt_succ_self _)
  · rename_i hfault
    rw [if_neg fun h => hfault h.2] at hops
    rw [hfollows.log, hops.1]
    rfl

/-- What becomes of a record that is handled, if no two pipelines have one id. If no active pipeline
takes it, it is dropped with an entry of its own, if that can be opened. Otherwise every pipeline that
takes it has one result, in the order of the workflows, and one new entry, if that can be opened; a
pipeline whose entry cannot be opened has neither. An entry can be opened unless it would expire later
than there are dates. -/
theorem handle_leaves_entries {ws : List Workflow}
    (distinct : ((Arena.owned ws).map (·.1.id)).Nodup) (logs : s.logsDrops = true)
    (orderly : w.Orderly)
    (timely : (handling s (.ofWorkflows ws) r w : Floor τ σ).Timely ad s (.ofWorkflows ws)) :
    ∃ out w', handle ad s (.ofWorkflows ws) r w = some (out, w') ∧
      if Arena.takers ws r.sourceKey = [] then
        out = dropOutcome s w.now ∧
          if out.isOk then
            ∃ until_ id, w.log.get? id = none ∧
              w'.log = w.log.append (Run.droppedEntry r w.now until_ id)
          else w'.log = w.log
      else
        ∃ results, out = .ok results ∧
          Logged s r w w' ((Arena.takers ws r.sourceKey).filter (opens w.now)) results := by
  have htakers := Arena.forSource_ofWorkflows distinct r.sourceKey
  rw [← htakers]
  by_cases hnone : (Arena.ofWorkflows ws).forSource r.sourceKey = []
  · refine ⟨(w.carryOut ad (drop s r)).1, (w.carryOut ad (drop s r)).2,
      handle_of_none ad s _ r w hnone, ?_⟩
    rw [if_pos hnone]
    have hout := (carryOut_drop ad s r w).1
    rw [hout]
    exact ⟨rfl, log_drop ad s r w logs orderly⟩
  · obtain ⟨results, w', hhandle, hlogged⟩ := handle_of_takers ad s _ r w hnone orderly timely
    refine ⟨_, w', hhandle, ?_⟩
    rw [if_neg hnone]
    exact ⟨results, rfl, hlogged⟩

/-- Two pipelines of one source. -/
def twins : Workflow where
  header := { id := "twins", name := "twins" }
  pipelines := [Run.patient, { Run.patient with id := "other" }]

/-- Destinations that take a second for every answer. -/
def slow : World Recording where
  now := ⟨0, none⟩
  destinations := { delay := some (.ofInt 1) }

theorem twins_leave_entries :
    ∃ results w', handle Recording.adapter {} (.ofWorkflows [twins]) Run.reading slow =
        some (.ok results, w') ∧
      Logged {} Run.reading slow w' ((Arena.owned [twins]).filter (opens slow.now)) results ∧
      results.length = 2 := by
  have hdistinct : ((Arena.owned [twins]).map (·.1.id)).Nodup := by decide
  have horderly : slow.Orderly := ⟨List.nodup_nil, fun _ _ => rfl⟩
  have htimely : (handling {} (.ofWorkflows [twins]) Run.reading slow).Timely Recording.adapter {}
      (.ofWorkflows [twins]) := Floor.timely_of_idle (n := 10) (by decide +kernel) (by decide +kernel)
  obtain ⟨out, w', hhandle, hlogged⟩ := handle_leaves_entries Recording.adapter {} Run.reading slow
    hdistinct rfl horderly htimely
  have htakers : Arena.takers [twins] Run.reading.sourceKey = Arena.owned [twins] := by rfl
  rw [htakers, if_neg (by simp [Arena.owned, twins])] at hlogged
  obtain ⟨results, rfl, hlogged⟩ := hlogged
  refine ⟨results, w', hhandle, hlogged, ?_⟩
  rw [← hlogged.each.length_eq]
  decide +kernel

/-- A workflow that keeps its entries for longer than there are dates. -/
def archive : Workflow where
  header := { id := "archive", name := "archive", retentionHours := .ofInt (10 ^ 12) }
  pipelines := [Run.patient]

/-- A record is lost without a result and without an entry, though the workflow is sound and its
pipeline takes the record. -/
theorem archive_loses_record :
    archive.issues = .ok [] ∧
      Arena.takers [archive] Run.reading.sourceKey = [(Run.patient, archive)] ∧
      ∃ w', handle Recording.adapter {} (.ofWorkflows [archive]) Run.reading calm = some (.ok [], w') ∧
        ∀ id, w'.log.get? id = none := by
  have htakers : (Arena.ofWorkflows [archive]).forSource Run.reading.sourceKey =
      [(Run.patient, archive)] := by rfl
  have hopens : opens calm.now (Run.patient, archive) = false := by decide +kernel
  have htimely : (handling {} (.ofWorkflows [archive]) Run.reading calm).Timely Recording.adapter {}
      (.ofWorkflows [archive]) := Floor.timely_of_idle (n := 5) (by decide +kernel) (by decide +kernel)
  obtain ⟨results, w', hhandle, hlogged⟩ := handle_of_takers Recording.adapter {}
    (.ofWorkflows [archive]) Run.reading calm (by simp [htakers]) ⟨List.nodup_nil, fun _ _ => rfl⟩ htimely
  rw [htakers, List.filter_cons_of_neg (by simp [hopens])] at hlogged
  obtain rfl : results = [] := List.forall₂_nil_left_iff.mp hlogged.each
  exact ⟨by decide +kernel, by rfl, w', hhandle, fun id => hlogged.others id List.not_mem_nil⟩

end Worker
end Conveyor
