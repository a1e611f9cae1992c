import Conveyor.Proofs.Run.Determined
import Conveyor.Proofs.Worker.Company
import Conveyor.Proofs.Worker.Record

/-!
# Runs alone and in company

If the destinations give the same answers at all times, and it can be told of every step whether it
ends in time, a record that is handled comes to the same as if each pipeline that takes it ran it
alone: the results and the entries are the same but for ids and times.
-/

namespace Conveyor.Worker

open Activity

variable {τ σ : Type} {ad : Adapter τ σ} {s : Settings} {a : Arena} {m : Replies} {P : σ → Prop}
  {r : InboundRecord} {v w w' : World σ} {now : Moment} {pw : Pipeline × Workflow}

/-! ## Runs that have ended in company -/

/-- A run whose entry can be opened ends with a result. -/
theorem exists_ok_of_ends {out : LaneResult} (h : (runOf s r pw).Ends m now out)
    (open_ : opens now pw = true) : ∃ x, out = .ok x := by
  obtain ⟨events, course, clock⟩ := h.exists_course
  rcases Run.course_logged course clock with ⟨f, rfl, never, -⟩ | ⟨x, -, -, rfl, -⟩
  · rw [opens, never] at open_
    cases open_
  · exact ⟨x, rfl⟩

/-- The results of runs that have ended in company are such as they can end with alone. -/
theorem ends_of_came {pws : List (Pipeline × Workflow)} {lanes : List (Lane τ)}
    (came : List.Forall₂ (Came m now) (pws.map (runOf s r)) lanes)
    (open_ : ∀ pw ∈ pws, opens now pw = true) :
    List.Forall₂ (fun pw x => (runOf s r pw).Ends m now (.ok x)) pws (resultsOf lanes) := by
  induction pws generalizing lanes with
  | nil =>
    cases came
    exact .nil
  | cons pw pws ih =>
    cases came with
    | cons first rest =>
      obtain ⟨out, rfl, ends⟩ := first
      obtain ⟨x, rfl⟩ := exists_ok_of_ends ends (open_ pw List.mem_cons_self)
      have hresults : ∀ lanes : List (Lane τ),
          resultsOf (.ended (.ok x) :: lanes) = x :: resultsOf lanes := fun _ => rfl
      rw [hresults]
      exact .cons ends (ih rest fun pw' hpw' => open_ pw' (List.mem_cons_of_mem _ hpw'))

/-- A record is handled when its floor comes to rest. -/
theorem handle_eq_some {out : Except Fault (List RunResult)} :
    handle ad s a r w = some (out, w') ↔
      ∃ g x, (handling s a r w : Floor τ σ).run ad s a = some g ∧ g.handled.head? = some x ∧
        x.outcome = out ∧ g.scene.world = w' := by
  unfold handle handling
  simp only [Option.bind_eq_bind, Option.bind_eq_some_iff, Option.pure_def, Option.some.injEq,
    Prod.mk.injEq]
  constructor
  · rintro ⟨g, hg, x, hx, hout, hw⟩
    exact ⟨g, x, hg, hx, hout, hw⟩
  · rintro ⟨g, x, hg, hx, hout, hw⟩
    exact ⟨g, hg, x, hx, hout, hw⟩

theorem lanes_handling {j : Job τ} (hj : j ∈ (handling s a r w : Floor τ σ).jobs) :
    j.lanes = (a.forSource r.sourceKey).map fun pw => .going (runOf s r pw) := by
  obtain rfl := List.mem_singleton.mp hj
  rfl

/-- Before its record enters, a run can end with all that it can end with. -/
theorem paced_handling (here : P w.destinations) :
    (handling s a r w : Floor τ σ).Paced ad m P w.now ((a.forSource r.sourceKey).map (runOf s r)) := by
  refine ⟨fun k _ => Alarms.notLater_of_none rfl, here, rfl, fun j hj => ⟨?_, ?_⟩, nofun⟩
  · rw [lanes_handling hj, List.length_map, List.length_map]
  · intro i run l hrun hl
    rw [lanes_handling hj, List.getElem?_map] at hl
    rw [List.getElem?_map] at hrun
    obtain ⟨pw, hpw, rfl⟩ := Option.map_eq_some_iff.mp hl
    rw [hpw] at hrun
    obtain rfl := Option.some.inj hrun
    exact .going (Lane.outlasts_refl _ _ _) .enters fun _ h => h

theorem decisive_handling : (handling s a r w : Floor τ σ).Decisive := by
  refine ⟨fun x hx => absurd hx (Array.not_mem_empty x), fun j hj l hl => ?_⟩
  rw [lanes_handling hj] at hl
  obtain ⟨pw, -, rfl⟩ := List.mem_map.mp hl
  exact trivial

/-- When a record is handled, all its runs come to what they can come to alone. -/
theorem handle_came {out : Except Fault (List RunResult)} (gives : ad.Gives m P)
    (here : P w.destinations) (some_ : a.forSource r.sourceKey ≠ [])
    (always : (handling s a r w : Floor τ σ).AlwaysDecisive ad s a)
    (h : handle ad s a r w = some (out, w')) :
    ∃ lanes : List (Lane τ), out = .ok (resultsOf lanes) ∧
      List.Forall₂ (Came m w.now) ((a.forSource r.sourceKey).map (runOf s r)) lanes := by
  obtain ⟨g, x, hrun, hx, rfl, -⟩ := handle_eq_some.mp h
  have hg := (paced_handling here).run gives (by simpa using some_) hrun (ending_handling s a r w)
    decisive_handling always
  exact hg.handled x (List.mem_of_head? hx)

/-! ## A run alone -/

/-- A run that is carried out at one go is one of one. -/
theorem told_carryOut (ad : Adapter τ σ) (run : Activity LaneResult) (v : World σ) :
    ∃ all, Told [run] v all [(.ended (v.carryOut ad run).1 : Lane τ)] (v.carryOut ad run).2 := by
  have hcourse := course_events (World.reply ad) run v
  have hfollows := World.follows_carryOut ad run v
  generalize events (World.reply ad) run v = es at hcourse hfollows
  refine ⟨es.map (0, ·), ?_, fun x hx => ?_, rfl, fun i run' l hrun hl => ?_⟩
  · rw [List.map_map]
    have hes : es.map ((·.2) ∘ ((0 : Nat), ·)) = es := List.map_id es
    rwa [hes]
  · obtain ⟨e, -, rfl⟩ := List.mem_map.mp hx
    exact Nat.zero_lt_one
  · cases i with
    | succ i => cases hrun
    | zero =>
      obtain rfl := Option.some.inj hrun
      obtain rfl := Option.some.inj hl
      have hes : eventsOf 0 ([] ++ es.map (0, ·)) = es := eventsOf_append_same es
      rw [List.nil_append] at hes
      rw [hes]
      exact hcourse

/-- A run alone comes to a result and an entry, if its entry can be opened. -/
theorem logged_carryOut (gives : ad.Gives m P) (here : P v.destinations) (orderly : v.Orderly)
    (open_ : opens v.now pw = true) (decides : v.Decides ad (runOf s r pw)) :
    ∃ x, (v.carryOut ad (runOf s r pw)).1 = .ok x ∧ (runOf s r pw).Ends m v.now (.ok x) ∧
      Logged s r v (v.carryOut ad (runOf s r pw)).2 [pw] [x] := by
  have hends := World.ends_carryOut gives (runOf s r pw) here decides
  obtain ⟨x, hx⟩ := exists_ok_of_ends hends open_
  refine ⟨x, hx, hx ▸ hends, ?_⟩
  obtain ⟨all, told⟩ := told_carryOut ad (runOf s r pw) v
  have htold : Told ([pw].map (runOf s r)) v all [(.ended (v.carryOut ad (runOf s r pw)).1 : Lane τ)]
      (v.carryOut ad (runOf s r pw)).2 := told
  have hlogged := htold.logged orderly fun l hl => by
    rw [List.mem_singleton.mp hl]
    rfl
  rw [hx, List.filter_cons_of_pos open_] at hlogged
  exact hlogged

/-! ## Alone and in company -/

/-- A run in company came to what it comes to alone, on a log that has nothing but its entry then. -/
inductive AsAlone (ad : Adapter τ σ) (s : Settings) (r : InboundRecord) (v w' : World σ)
    (pw : Pipeline × Workflow) (x : RunResult) : Prop where
  | intro {x' : RunResult} {id id' : String} (result : (v.carryOut ad (runOf s r pw)).1 = .ok x')
      (alike : x'.Alike x) (own : entryId? x = some id) (own' : entryId? x' = some id')
      (entry : Option.Rel LogEntry.Alike ((v.carryOut ad (runOf s r pw)).2.log.get? id')
        (w'.log.get? id))
      (only : ∀ other, other ≠ id' → (v.carryOut ad (runOf s r pw)).2.log.get? other = none)

/-- The entry of a run is in the log as its result has it, or not at all. -/
theorem Entered.get?_entry {x : RunResult} (h : Entered s r w w' pw x) :
    ∃ id, entryId? x = some id ∧
      w'.log.get? id = if Run.discards x.isComplete (some pw.2) then none else x.entry := by
  cases h with
  | intro course recorded fresh log =>
    obtain ⟨versions, story⟩ := recorded.story
    exact ⟨_, entryId?_eq recorded, by rw [log, story.entry]⟩

/-- Two runs that end with alike results leave alike entries. -/
theorem asAlone_of_entered {x : RunResult} (gives : ad.Gives m P) (here : P v.destinations)
    (fresh : v.log = {}) (open_ : opens v.now pw = true) (decides : v.Decides ad (runOf s r pw))
    (ends : (runOf s r pw).Ends m w.now (.ok x)) (entered : Entered s r w w' pw x) :
    AsAlone ad s r v w' pw x := by
  have horderly : v.Orderly := by
    refine ⟨?_, fun _ _ => ?_⟩
    · rw [fresh]
      exact List.nodup_nil
    · rw [fresh]
      rfl
  obtain ⟨x', hresult, hends, hlogged⟩ := logged_carryOut gives here horderly open_ decides
  have halike : x'.Alike x := Run.alike_of_ends hends ends
  have hcomplete : x'.isComplete = x.isComplete := by
    rw [RunResult.isComplete, RunResult.isComplete, halike.error]
  obtain ⟨id, hid, hentry⟩ := entered.get?_entry
  have hentered : Entered s r v (v.carryOut ad (runOf s r pw)).2 pw x' := by
    cases hlogged.each with
    | cons head _ => exact head
  obtain ⟨id', hid', hentry'⟩ := hentered.get?_entry
  refine .intro hresult halike hid hid' ?_ fun other hother => ?_
  · rw [hentry, hentry', hcomplete]
    split
    · exact .none
    · exact halike.entry
  · rw [hlogged.others other ?_, fresh]
    · rfl
    · rw [List.map_singleton, List.mem_singleton, hid', Option.some.injEq]
      exact hother

variable (ad s r)

/-- Concurrent runs of a record do not influence each other. Suppose that the destinations give the
same answers, after the same times, to the same requests, that every alarm which is waited for goes
off, and that in every turn it can be told of every step whether it ends in time; alone, that it can
be told of every call whether it is answered in time. Then handling a record comes to the same results,
in the order of the workflows, as running each pipeline that takes it alone on a fresh log, and the
log gets the same entries, but for ids and times; its other entries are as they were. If no active
pipeline takes the record, it must not be logged that it is dropped. -/
theorem handle_as_alone {ws : List Workflow} (distinct : ((Arena.owned ws).map (·.1.id)).Nodup)
    (gives : ad.Gives m P) (here : P w.destinations) (here' : P v.destinations) (orderly : w.Orderly)
    (fresh : v.log = {}) (taken : Arena.takers ws r.sourceKey ≠ [] ∨ s.logsDrops = false)
    (open_ : ∀ pw ∈ Arena.takers ws r.sourceKey, opens w.now pw = true ∧ opens v.now pw = true)
    (timely : (handling s (.ofWorkflows ws) r w : Floor τ σ).Timely ad s (.ofWorkflows ws))
    (always : (handling s (.ofWorkflows ws) r w : Floor τ σ).AlwaysDecisive ad s (.ofWorkflows ws))
    (decides : ∀ pw ∈ Arena.takers ws r.sourceKey, v.Decides ad (runOf s r pw)) :
    ∃ results w', handle ad s (.ofWorkflows ws) r w = some (.ok results, w') ∧
      List.Forall₂ (AsAlone ad s r v w') (Arena.takers ws r.sourceKey) results ∧
      (results.map entryId?).Nodup ∧
      ∀ id, some id ∉ results.map entryId? → w'.log.get? id = w.log.get? id := by
  rw [← Arena.forSource_ofWorkflows distinct] at taken open_ decides ⊢
  by_cases hnone : (Arena.ofWorkflows ws).forSource r.sourceKey = []
  · have hlogs := taken.resolve_left (not_not.mpr hnone)
    have hdrop : drop s r = pure (.ok []) := by
      unfold drop
      rw [hlogs]
      rfl
    refine ⟨[], w, ?_, hnone ▸ .nil, List.nodup_nil, fun _ _ => rfl⟩
    rw [handle_of_none ad s _ r w hnone, hdrop]
    rfl
  · obtain ⟨results, w', hhandle, hlogged⟩ := handle_of_takers ad s _ r w hnone orderly timely
    obtain ⟨lanes, hout, hcame⟩ := handle_came gives here hnone always hhandle
    obtain rfl : results = resultsOf lanes := Except.ok.inj hout
    have hends := ends_of_came hcame fun pw hpw => (open_ pw hpw).1
    have heach := hlogged.each
    rw [List.filter_eq_self.mpr fun pw hpw => (open_ pw hpw).1] at heach
    refine ⟨_, w', hhandle, List.forall₂_iff_get.mpr ⟨heach.length_eq, fun i hi hk => ?_⟩,
      hlogged.nodup, hlogged.others⟩
    have hmem := List.get_mem _ ⟨i, hi⟩
    exact asAlone_of_entered gives here' fresh (open_ _ hmem).2 (decides _ hmem) (hends.get hi hk)
      (heach.get hi hk)

/-- The world of `slow` a day later, where some ids have been drawn. -/
def slowNextDay : World Recording := { slow with now := ⟨86400000000, none⟩, drawn := 5 }

theorem twins_as_alone :
    ∃ results w', handle Recording.adapter {} (.ofWorkflows [twins]) Run.reading slow =
        some (.ok results, w') ∧
      List.Forall₂ (AsAlone Recording.adapter {} Run.reading slowNextDay w')
        (Arena.takers [twins] Run.reading.sourceKey) results ∧
      (results.map entryId?).Nodup ∧
      ∀ id, some id ∉ results.map entryId? → w'.log.get? id = slow.log.get? id := by
  have hdistinct : ((Arena.owned [twins]).map (·.1.id)).Nodup := by decide
  have horderly : slow.Orderly := ⟨List.nodup_nil, fun _ _ => rfl⟩
  have htimely : (handling {} (.ofWorkflows [twins]) Run.reading slow).Timely Recording.adapter {}
      (.ofWorkflows [twins]) := Floor.timely_of_idle (n := 10) (by decide +kernel) (by decide +kernel)
  have halways : (handling {} (.ofWorkflows [twins]) Run.reading slow).AlwaysDecisive
      Recording.adapter {} (.ofWorkflows [twins]) :=
    Floor.alwaysDecisive_of_idle (n := 10) (by decide +kernel) (by decide +kernel)
  exact handle_as_alone Recording.adapter {} Run.reading hdistinct
    (Recording.gives_replies slow.destinations) ⟨rfl, rfl, rfl, rfl⟩ ⟨rfl, rfl, rfl, rfl⟩ horderly rfl
    (.inl (by decide)) (by decide +kernel) htimely halways (by decide +kernel)

/-- A pipeline that waits for its destination for no more than a second. -/
def hasty (id : String) : Pipeline := { Run.patient with id, delivery := { timeout := .ofInt 1 } }

/-- Three pipelines of one source whose steps are out of time when their answers come. -/
def triplets : Workflow where
  header := { id := "triplets", name := "triplets" }
  pipelines := [hasty "first", hasty "second", hasty "third"]

theorem AsAlone.isComplete {x : RunResult} (h : AsAlone ad s r v w' pw x) :
    (v.carryOut ad (runOf s r pw)).1.toOption.map RunResult.isComplete = some x.isComplete := by
  cases h with
  | intro result alike =>
    rw [result, RunResult.isComplete, alike.error]
    rfl

/-- If an answer comes at the very time at which its step is out of time, it depends on the company
which of the two is first: alone none of these runs is completed, together the second one is. -/
theorem triplets_not_as_alone :
    ((Arena.owned [triplets]).map (·.1.id)).Nodup ∧
      (∀ pw ∈ Arena.takers [triplets] Run.reading.sourceKey, opens slow.now pw = true) ∧
      Recording.adapter.Gives slow.destinations.replies slow.destinations.Repeats ∧
      slow.destinations.Repeats slow.destinations ∧
      ∃ results w', handle Recording.adapter {} (.ofWorkflows [triplets]) Run.reading slow =
          some (.ok results, w') ∧
        ¬ List.Forall₂ (AsAlone Recording.adapter {} Run.reading slow w')
          (Arena.takers [triplets] Run.reading.sourceKey) results := by
  have hrounds : ((handling {} (.ofWorkflows [triplets]) Run.reading slow).rounds Recording.adapter {}
      (.ofWorkflows [triplets]) 10).map (fun g => g.handled.map fun h =>
        h.outcome.toOption.map (·.map RunResult.isComplete)) = some [some [false, true, false]] := by
    decide +kernel
  obtain ⟨g, hg, hhandled⟩ := Option.map_eq_some_iff.mp hrounds
  obtain ⟨h, hh, hout⟩ := List.map_eq_singleton_iff.mp hhandled
  obtain ⟨results, hok, hcomplete⟩ := Option.map_eq_some_iff.mp hout
  have hok : h.outcome = .ok results := by
    cases hcase : h.outcome with
    | error f =>
      rw [hcase] at hok
      cases hok
    | ok results' =>
      rw [hcase] at hok
      rw [Option.some.inj hok]
  have hhandle : handle Recording.adapter {} (.ofWorkflows [triplets]) Run.reading slow =
      some (.ok results, g.scene.world) :=
    handle_eq_some.mpr ⟨g, h, Floor.run_of_rounds hg, by rw [hh]; rfl, hok, rfl⟩
  refine ⟨by decide, by decide +kernel, Recording.gives_replies _, ⟨rfl, rfl, rfl, rfl⟩, results, _,
    hhandle, fun halone => ?_⟩
  have hsame : (Arena.takers [triplets] Run.reading.sourceKey).map (fun pw =>
      (slow.carryOut Recording.adapter (runOf {} Run.reading pw)).1.toOption.map RunResult.isComplete) =
      results.map fun x => some x.isComplete := by
    rw [← List.forall₂_eq_eq_eq, List.forall₂_map_left_iff, List.forall₂_map_right_iff]
    exact halone.imp fun _ _ h => h.isComplete
  have hnone : (Arena.takers [triplets] Run.reading.sourceKey).map (fun pw =>
      (slow.carryOut Recording.adapter (runOf {} Run.reading pw)).1.toOption.map RunResult.isComplete) =
      [some false, some false, some false] := by decide +kernel
  have hsome : (results.map RunResult.isComplete).map some = [some false, some true, some false] := by
    rw [hcomplete]
    rfl
  rw [List.map_map] at hsome
  exact absurd (hnone.symm.trans (hsame.trans hsome)) (by decide)

end Conveyor.Worker
