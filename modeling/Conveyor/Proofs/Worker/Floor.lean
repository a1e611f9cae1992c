import Conveyor.Proofs.Worker.Lane
import Conveyor.Worker.Floor

/-!
# The records under way

A record that is under way enters, then its runs take turns until all have ended and been counted;
then it is settled, and last it leaves. In each of these phases just the turns are pending that lead
to the next one, so no record is dealt with twice and none is forgotten.
-/

namespace Conveyor.Worker

variable {τ σ : Type}

/-- The record that a turn is about. -/
def Turn.job? : Turn → Option Nat
  | .take | .poll => none
  | .enter job | .tally job | .settle job | .release job => some job
  | .lane id _ => some id.job

/-- How many turns of each kind are pending for a record, besides those of its runs. -/
structure Calls (P : Multiset Turn) (id enter tally settle release : Nat) : Prop where
  enter : P.count (.enter id) = enter
  tally : P.count (.tally id) = tally
  settle : P.count (.settle id) = settle
  release : P.count (.release id) = release

namespace Calls

variable {P P' : Multiset Turn} {id enter tally settle release : Nat}

theorem congr (h : Calls P id enter tally settle release)
    (same : ∀ t, t.job? = some id → P'.count t = P.count t) :
    Calls P' id enter tally settle release :=
  ⟨(same _ rfl).trans h.enter, (same _ rfl).trans h.tally, (same _ rfl).trans h.settle,
    (same _ rfl).trans h.release⟩

theorem iff : Calls P id enter tally settle release ↔
    P.count (.enter id) = enter ∧ P.count (.tally id) = tally ∧ P.count (.settle id) = settle ∧
      P.count (.release id) = release :=
  ⟨fun h => ⟨h.enter, h.tally, h.settle, h.release⟩, fun ⟨he, ht, hs, hr⟩ => ⟨he, ht, hs, hr⟩⟩

/-- The turn of a run does not count. -/
theorem of_lane_cons {lane : LaneId} {cue : Cue}
    (h : Calls (.lane lane cue ::ₘ P) id enter tally settle release) :
    Calls P id enter tally settle release := by
  simpa [Calls.iff] using h

/-- The turns of its runs do not count. -/
theorem of_lanes {gone new : Multiset Turn} (h : Calls P id enter tally settle release)
    (changes : P' + gone = P + new) (hgone : ∀ t ∈ gone, ∃ id cue, t = .lane id cue)
    (hnew : ∀ t ∈ new, ∃ id cue, t = .lane id cue) : Calls P' id enter tally settle release := by
  have hzero : ∀ (Q : Multiset Turn), (∀ t ∈ Q, ∃ id cue, t = .lane id cue) → ∀ t,
      (∀ id cue, t ≠ .lane id cue) → Q.count t = 0 := by
    intro Q hQ t ht
    refine Multiset.count_eq_zero.mpr fun hmem => ?_
    obtain ⟨id, cue, rfl⟩ := hQ t hmem
    exact ht id cue rfl
  have hcount : ∀ t, (∀ id cue, t ≠ .lane id cue) → P'.count t = P.count t := by
    intro t ht
    have := congrArg (Multiset.count t) changes
    rwa [Multiset.count_add, Multiset.count_add, hzero gone hgone t ht, hzero new hnew t ht] at this
  exact ⟨(hcount (.enter id) fun _ _ => nofun).trans h.enter,
    (hcount (.tally id) fun _ _ => nofun).trans h.tally,
    (hcount (.settle id) fun _ _ => nofun).trans h.settle,
    (hcount (.release id) fun _ _ => nofun).trans h.release⟩

end Calls

namespace Job

/-- How many runs of a record have ended. -/
def ended (j : Job τ) : Nat := j.lanes.countP Lane.isEnded

/-- How far a record has come, and what is pending for it. -/
inductive Phase (P : Multiset Turn) (j : Job τ) : Prop where
  | entering (calls : Calls P j.id 1 0 0 0) (quiet : ∀ i cue, .lane ⟨j.id, i⟩ cue ∉ P)
      (counted : j.counted = 0) (going : ∀ l ∈ j.lanes, ∃ t, l = .going t) (open_ : j.outcome = none)
  | running (tallies : Nat) (calls : Calls P j.id 0 tallies 0 0)
      (counted : j.counted + tallies = j.ended) (lt : j.counted < j.lanes.length)
      (alive : ∀ (i : Nat) (l : Lane τ), j.lanes[i]? = some l → l.Alive ⟨j.id, i⟩ P)
      (open_ : j.outcome = none)
  | settling (calls : Calls P j.id 0 0 1 0) (ended : j.ended = j.lanes.length)
      (some_ : j.lanes ≠ []) (open_ : j.outcome = none)
  | leaving (calls : Calls P j.id 0 0 0 1) (ended : j.ended = j.lanes.length)
      (closed : j.outcome ≠ none)

variable {P P' : Multiset Turn} {j : Job τ}

/-- What is pending for other records does not matter. -/
theorem Phase.congr (h : j.Phase P) (same : ∀ t, t.job? = some j.id → P'.count t = P.count t) :
    j.Phase P' := by
  have hmem : ∀ {t}, t.job? = some j.id → (t ∈ P' ↔ t ∈ P) := fun ht => by
    rw [← Multiset.one_le_count_iff_mem, same _ ht, Multiset.one_le_count_iff_mem]
  cases h with
  | entering calls quiet counted going open_ =>
    exact .entering (calls.congr same) (fun i cue h => quiet i cue ((hmem rfl).mp h)) counted going
      open_
  | running _ calls counted lt alive open_ =>
    exact .running _ (calls.congr same) counted lt
      (fun i l hl => (alive i l hl).mono fun cue h => (hmem rfl).mpr h) open_
  | settling calls ended some_ open_ => exact .settling (calls.congr same) ended some_ open_
  | leaving calls ended closed => exact .leaving (calls.congr same) ended closed

theorem ended_of_going (h : ∀ l ∈ j.lanes, ∃ t, l = .going t) : j.ended = 0 := by
  refine List.countP_eq_zero.mpr fun l hl => ?_
  obtain ⟨t, rfl⟩ := h l hl
  exact Bool.false_ne_true

theorem ended_le (j : Job τ) : j.ended ≤ j.lanes.length := List.countP_le_length

/-- A record with runs enters: all its runs get a turn. -/
theorem Phase.enter (h : j.Phase (.enter j.id ::ₘ P)) (some_ : j.lanes ≠ [])
    (hP : P' = P + (j.laneIds.map fun id => Turn.lane id .goOn : List Turn)) : j.Phase P' := by
  subst hP
  cases h with
  | entering calls quiet counted going open_ =>
    have hcalls : Calls P j.id 0 0 0 0 := by simpa [Calls.iff] using calls
    have hchanges : P + (j.laneIds.map fun id => Turn.lane id .goOn : List Turn) + 0 = P + _ :=
      add_zero _
    refine .running 0 (hcalls.of_lanes hchanges ?_ ?_) ?_ ?_ ?_ open_
    · exact fun _ h => absurd h (Multiset.notMem_zero _)
    · intro t ht
      obtain ⟨id, -, rfl⟩ := List.mem_map.mp (Multiset.mem_coe.mp ht)
      exact ⟨id, .goOn, rfl⟩
    · rw [counted, ended_of_going going]
    · rw [counted]
      exact List.length_pos_iff.mpr some_
    · intro i l hl
      obtain ⟨t, rfl⟩ := going l (List.mem_of_getElem? hl)
      refine .inl (Multiset.mem_add.mpr (.inr (Multiset.mem_coe.mpr ?_)))
      refine List.mem_map.mpr ⟨⟨j.id, i⟩, List.mem_map.mpr ⟨i, ?_, rfl⟩, rfl⟩
      exact List.mem_range.mpr (List.getElem?_eq_some_iff.mp hl).1
  | running _ calls => exact absurd calls.enter (by simp)
  | settling calls => exact absurd calls.enter (by simp)
  | leaving calls => exact absurd calls.enter (by simp)

/-- A record without runs is dealt with as it enters. -/
theorem Phase.drop (h : j.Phase (.enter j.id ::ₘ P)) (none_ : j.lanes = [])
    (outcome : Except Fault (List RunResult)) :
    ({ j with outcome := some outcome } : Job τ).Phase (.release j.id ::ₘ P) := by
  cases h with
  | entering calls quiet counted going open_ =>
    exact .leaving (by simpa [Calls.iff] using calls) (by simp [ended, none_]) nofun
  | running _ calls => exact absurd calls.enter (by simp)
  | settling calls => exact absurd calls.enter (by simp)
  | leaving calls => exact absurd calls.enter (by simp)

theorem Phase.settle (h : j.Phase (.settle j.id ::ₘ P)) (outcome : Except Fault (List RunResult)) :
    ({ j with outcome := some outcome } : Job τ).Phase (.release j.id ::ₘ P) := by
  cases h with
  | settling calls ended some_ open_ =>
    exact .leaving (by simpa [Calls.iff] using calls) ended nofun
  | entering calls => exact absurd calls.settle (by simp)
  | running _ calls => exact absurd calls.settle (by simp)
  | leaving calls => exact absurd calls.settle (by simp)

/-- The end of a run is counted; with the last one the record is settled. -/
theorem Phase.tally (h : j.Phase (.tally j.id ::ₘ P)) :
    if j.counted + 1 = j.lanes.length then
      ({ j with counted := j.counted + 1 } : Job τ).Phase (.settle j.id ::ₘ P)
    else ({ j with counted := j.counted + 1 } : Job τ).Phase P := by
  cases h with
  | running tallies calls counted lt alive open_ =>
    obtain ⟨henter, htally, hsettle, hrelease⟩ : P.count (.enter j.id) = 0 ∧
        P.count (.tally j.id) + 1 = tallies ∧ P.count (.settle j.id) = 0 ∧
        P.count (.release j.id) = 0 := by
      simpa [Calls.iff] using calls
    have hended := j.ended_le
    have hlanes : ∀ {i cue}, .lane ⟨j.id, i⟩ cue ∈ Turn.tally j.id ::ₘ P → .lane ⟨j.id, i⟩ cue ∈ P :=
      fun h => (Multiset.mem_cons.mp h).resolve_left nofun
    split
    · rename_i hall
      have hcalls : Calls P j.id 0 0 0 0 := ⟨henter, by omega, hsettle, hrelease⟩
      refine .settling (by simpa [Calls.iff] using hcalls) ?_ ?_ open_
      · show j.ended = j.lanes.length
        omega
      · exact List.length_pos_iff.mp (Nat.zero_lt_of_lt lt)
    · rename_i hmore
      refine .running (P.count (.tally j.id)) ⟨henter, rfl, hsettle, hrelease⟩ ?_ ?_ ?_ open_
      · show j.counted + 1 + _ = j.ended
        omega
      · show j.counted + 1 < j.lanes.length
        omega
      · exact fun i l hl => (alive i l hl).mono fun _ => hlanes
  | entering calls => exact absurd calls.tally (by simp)
  | settling calls => exact absurd calls.tally (by simp)
  | leaving calls => exact absurd calls.tally (by simp)

/-- Replacing a lane changes the number of those that have ended by that lane only. -/
theorem ended_set {i : Nat} {l : Lane τ} (l' : Lane τ) (hl : j.lanes[i]? = some l) :
    ({ j with lanes := j.lanes.set i l' } : Job τ).ended + (if l.isEnded then 1 else 0) =
      j.ended + if l'.isEnded then 1 else 0 := by
  obtain ⟨hi, rfl⟩ := List.getElem?_eq_some_iff.mp hl
  have hpos : (if j.lanes[i].isEnded then 1 else 0) ≤ j.lanes.countP Lane.isEnded := by
    split
    · rename_i hended
      exact List.one_le_countP_iff.mpr ⟨_, List.getElem_mem hi, hended⟩
    · exact Nat.zero_le _
  show (j.lanes.set i l').countP Lane.isEnded + _ = j.lanes.countP Lane.isEnded + _
  rw [List.countP_set hi]
  omega

theorem isEnded_of_ended_eq (h : j.ended = j.lanes.length) {l : Lane τ} (hl : l ∈ j.lanes) :
    l.isEnded = true := List.countP_eq_length.mp h l hl

/-- A record that enters or is settled has not been dealt with; one that leaves has been. -/
theorem Phase.open_of_enter (h : j.Phase (.enter j.id ::ₘ P)) : j.outcome = none := by
  cases h with
  | entering calls quiet counted going open_ => exact open_
  | running _ calls => exact absurd calls.enter (by simp)
  | settling calls => exact absurd calls.enter (by simp)
  | leaving calls => exact absurd calls.enter (by simp)

theorem Phase.open_of_settle (h : j.Phase (.settle j.id ::ₘ P)) :
    j.outcome = none ∧ j.lanes ≠ [] ∧ ∀ l ∈ j.lanes, l.isEnded = true := by
  cases h with
  | settling calls ended some_ open_ => exact ⟨open_, some_, fun _ => isEnded_of_ended_eq ended⟩
  | entering calls => exact absurd calls.settle (by simp)
  | running _ calls => exact absurd calls.settle (by simp)
  | leaving calls => exact absurd calls.settle (by simp)

/-- No run of a record has a turn before the record enters. -/
theorem Phase.quiet_of_enter (h : j.Phase (.enter j.id ::ₘ P)) :
    (∀ i cue, .lane ⟨j.id, i⟩ cue ∉ P) ∧ ∀ l ∈ j.lanes, ∃ t, l = .going t := by
  cases h with
  | entering calls quiet counted going open_ =>
    exact ⟨fun i cue hmem => quiet i cue (Multiset.mem_cons_of_mem hmem), going⟩
  | running _ calls => exact absurd calls.enter (by simp)
  | settling calls => exact absurd calls.enter (by simp)
  | leaving calls => exact absurd calls.enter (by simp)

theorem Phase.closed_of_release (h : j.Phase (.release j.id ::ₘ P)) : j.outcome ≠ none := by
  cases h with
  | leaving calls ended closed => exact closed
  | entering calls => exact absurd calls.release (by simp)
  | running _ calls => exact absurd calls.release (by simp)
  | settling calls => exact absurd calls.release (by simp)

section lane

variable {σ : Type} {s s' : Scene σ} {gone new : Multiset Turn} {i : Nat} {cue : Cue}
  {l l' : Lane τ}

/-- The run that has a turn gets what it waits for, and the others keep it. -/
theorem alive_set (moves : l.Moves ⟨j.id, i⟩ cue l' gone new) (changes : s.Changes s' gone new)
    (hl : j.lanes[i]? = some l)
    (alive : ∀ (k : Nat) (m : Lane τ), j.lanes[k]? = some m →
      m.Alive ⟨j.id, k⟩ (.lane ⟨j.id, i⟩ cue ::ₘ s.pending)) {k : Nat} {m : Lane τ}
    (hm : (j.lanes.set i l')[k]? = some m) : m.Alive ⟨j.id, k⟩ s'.pending := by
  rw [List.getElem?_set] at hm
  split at hm
  · rename_i hik
    split at hm
    · obtain rfl := Option.some.inj hm
      subst hik
      exact moves.alive changes (alive i l hl)
    · cases hm
  · rename_i hik
    have hother : ∀ {cue' cue''}, Turn.lane ⟨j.id, k⟩ cue' ≠ .lane ⟨j.id, i⟩ cue'' := by
      intro cue' cue'' h
      injection h with h
      injection h with _ h
      exact hik h.symm
    refine (alive k m hm).mono fun cue' hmem => ?_
    refine changes.mem ((Multiset.mem_cons.mp hmem).resolve_left hother) fun h => ?_
    obtain ⟨cue'', h⟩ := moves.own.1 _ h
    exact hother h

/-- A lane of a record whose runs have all ended stays as it is. -/
theorem set_of_ended (moves : l.Moves ⟨j.id, i⟩ cue l' gone new) (hl : j.lanes[i]? = some l)
    (ended : j.ended = j.lanes.length) :
    ({ j with lanes := j.lanes.set i l' } : Job τ) = j ∧ ∀ t ∈ new, ∃ id cue, t = .lane id cue := by
  have hended := isEnded_of_ended_eq ended (List.mem_of_getElem? hl)
  rcases moves.own.2 with ⟨hopen, -⟩ | ⟨-, hsame, hnew⟩
  · rw [hended] at hopen
    cases hopen
  · obtain ⟨hi, rfl⟩ := List.getElem?_eq_some_iff.mp hl
    rw [hsame hended, List.set_getElem_self]
    exact ⟨rfl, fun t ht => ⟨_, hnew t ht⟩⟩

/-- A run has a turn. -/
theorem Phase.lane (h : j.Phase (.lane ⟨j.id, i⟩ cue ::ₘ s.pending)) (hl : j.lanes[i]? = some l)
    (moves : l.Moves ⟨j.id, i⟩ cue l' gone new) (changes : s.Changes s' gone new) :
    ({ j with lanes := j.lanes.set i l' } : Job τ).Phase s'.pending := by
  obtain ⟨hgone, hnew⟩ := moves.own
  have hgone' : ∀ t ∈ gone, ∃ id cue, t = .lane id cue := fun t ht => ⟨_, hgone t ht⟩
  cases h with
  | entering calls quiet => exact absurd (Multiset.mem_cons_self _ _) (quiet i cue)
  | settling calls ended some_ open_ =>
    obtain ⟨hj, hnew⟩ := set_of_ended moves hl ended
    rw [hj]
    exact .settling (calls.of_lane_cons.of_lanes changes.pending hgone' hnew) ended some_ open_
  | leaving calls ended closed =>
    obtain ⟨hj, hnew⟩ := set_of_ended moves hl ended
    rw [hj]
    exact .leaving (calls.of_lane_cons.of_lanes changes.pending hgone' hnew) ended closed
  | running tallies calls counted lt alive open_ =>
    have hset := ended_set l' hl
    have hlength : j.counted < (j.lanes.set i l').length := by rwa [List.length_set]
    rcases hnew with ⟨hopen, hended, rfl⟩ | ⟨hsame, -, hnew⟩
    · -- the lane ends, and its end is to be counted
      have hpending : s'.pending + gone = (.tally j.id ::ₘ s.pending) + 0 := by
        rw [changes.pending, add_zero, add_comm, Multiset.singleton_add]
      have htally : Calls (.tally j.id ::ₘ s.pending) j.id 0 (tallies + 1) 0 0 := by
        simpa [Calls.iff] using calls.of_lane_cons
      refine .running (tallies + 1) (htally.of_lanes hpending hgone' ?_) ?_ hlength
        (fun k m hm => alive_set moves changes hl alive hm) open_
      · exact fun _ h => absurd h (Multiset.notMem_zero _)
      · rw [hopen, hended] at hset
        simp only [Bool.false_eq_true, if_false, if_true] at hset
        show j.counted + (tallies + 1) = _
        omega
    · refine .running tallies ?_ ?_ hlength
        (fun k m hm => alive_set moves changes hl alive hm) open_
      · exact calls.of_lane_cons.of_lanes changes.pending hgone' fun t ht => ⟨_, hnew t ht⟩
      · rw [hsame] at hset
        show j.counted + tallies = _
        omega

end lane

/-- A turn for a run that there is not is none. -/
theorem Phase.astray {i : Nat} {cue : Cue} (h : j.Phase (.lane ⟨j.id, i⟩ cue ::ₘ P))
    (beyond : j.lanes[i]? = none) : j.Phase P := by
  cases h with
  | entering calls quiet => exact absurd (Multiset.mem_cons_self _ _) (quiet i cue)
  | settling calls ended some_ open_ => exact .settling calls.of_lane_cons ended some_ open_
  | leaving calls ended closed => exact .leaving calls.of_lane_cons ended closed
  | running tallies calls counted lt alive open_ =>
    refine .running tallies calls.of_lane_cons counted lt (fun k l hl => ?_) open_
    refine (alive k l hl).mono fun cue' hmem => (Multiset.mem_cons.mp hmem).resolve_left fun h => ?_
    injection h with h
    injection h with _ h
    rw [h, beyond] at hl
    cases hl

end Job

/-- Turns that are neither gone nor new are as many as before. -/
theorem Scene.Changes.count_eq {s s' : Scene σ} {gone new : Multiset Turn} {t : Turn}
    (h : s.Changes s' gone new) (hgone : t ∉ gone) (hnew : t ∉ new) :
    s'.pending.count t = s.pending.count t := by
  have := congrArg (Multiset.count t) h.pending
  rwa [Multiset.count_add, Multiset.count_add, Multiset.count_eq_zero.mpr hgone,
    Multiset.count_eq_zero.mpr hnew] at this

theorem Job.Phase.changes {s s' : Scene σ} {gone new : Multiset Turn} {j : Job τ}
    (h : j.Phase s.pending) (hs : s.Changes s' gone new) (hgone : ∀ t ∈ gone, t.job? ≠ some j.id)
    (hnew : ∀ t ∈ new, t.job? ≠ some j.id) : j.Phase s'.pending :=
  h.congr fun t ht => hs.count_eq (fun hmem => hgone t hmem ht) fun hmem => hnew t hmem ht

namespace Floor

variable {ad : Adapter τ σ} {s : Settings} {a : Arena} {f f' : Floor τ σ} {j j' : Job τ}
  {gone new : Multiset Turn}

/-! ## What a turn does -/

theorem job?_eq_some {id : Nat} (h : f.job? id = some j) : j ∈ f.jobs ∧ j.id = id :=
  ⟨List.mem_of_find?_eq_some h, by simpa using List.find?_some h⟩

theorem ne_of_job?_eq_none {id : Nat} (h : f.job? id = none) (hj : j ∈ f.jobs) : j.id ≠ id := by
  simpa using List.find?_eq_none.mp h j hj

theorem mem_setJob {k : Job τ} (h : k ∈ (f.setJob j').jobs) :
    k = j' ∨ k ∈ f.jobs ∧ k.id ≠ j'.id := by
  obtain ⟨m, hm, rfl⟩ := List.mem_map.mp h
  split
  · exact .inl rfl
  · rename_i hne
    exact .inr ⟨hm, hne⟩

theorem mem_setJob_self (hj : j ∈ f.jobs) (same : j'.id = j.id) : j' ∈ (f.setJob j').jobs :=
  List.mem_map.mpr ⟨j, hj, if_pos same.symm⟩

theorem map_id_setJob (f : Floor τ σ) (j' : Job τ) :
    (f.setJob j').jobs.map Job.id = f.jobs.map Job.id := by
  simp only [setJob, List.map_map]
  refine List.map_congr_left fun k _ => ?_
  simp only [Function.comp_apply]
  split
  · rename_i h
    exact h.symm
  · rfl

/-- A record under way has a place of its own among the others. -/
theorem exists_split (nodup : (f.jobs.map Job.id).Nodup) (hj : j ∈ f.jobs) :
    ∃ before after, f.jobs = before ++ j :: after ∧
      (∀ j' : Job τ, j'.id = j.id → (f.setJob j').jobs = before ++ j' :: after) ∧
      (f.jobs.filter fun k => k.id ≠ j.id) = before ++ after := by
  obtain ⟨before, after, hjobs⟩ := List.append_of_mem hj
  rw [hjobs, List.map_append, List.map_cons, List.nodup_append, List.nodup_cons] at nodup
  obtain ⟨-, ⟨hafter, -⟩, hbefore⟩ := nodup
  have hb : ∀ k ∈ before, k.id ≠ j.id := fun k hk =>
    hbefore k.id (List.mem_map_of_mem hk) j.id List.mem_cons_self
  have ha : ∀ k ∈ after, k.id ≠ j.id := fun k hk h => hafter (h ▸ List.mem_map_of_mem hk)
  have hmap : ∀ (j' : Job τ), j'.id = j.id → ∀ l : List (Job τ), (∀ k ∈ l, k.id ≠ j.id) →
      (l.map fun k => if k.id = j'.id then j' else k) = l := by
    intro j' hid l hl
    refine (List.map_congr_left fun k hk => ?_).trans (List.map_id l)
    rw [hid, if_neg (hl k hk)]
    rfl
  have hfilter : ∀ l : List (Job τ), (∀ k ∈ l, k.id ≠ j.id) →
      (l.filter fun k => k.id ≠ j.id) = l := fun l hl =>
    List.filter_eq_self.mpr fun k hk => by simpa using hl k hk
  refine ⟨before, after, hjobs, fun j' hid => ?_, ?_⟩
  · show f.jobs.map _ = _
    rw [hjobs, List.map_append, List.map_cons, hmap j' hid before hb, hmap j' hid after ha,
      if_pos hid.symm]
  · rw [hjobs, List.filter_append, hfilter before hb, List.filter_cons, hfilter after ha]
    simp

section release

variable (j : Job τ) (f : Floor τ σ)

@[simp] theorem jobs_release : (release j f).jobs = f.jobs.filter fun k => k.id ≠ j.id := by
  unfold release
  simp only
  split <;> rfl

@[simp] theorem taken_release : (release j f).taken = f.taken := by
  unfold release
  simp only
  split <;> rfl

@[simp] theorem handled_release : (release j f).handled = f.handled := by
  unfold release
  simp only
  split <;> rfl

@[simp] theorem acked_release : (release j f).acked = f.acked := by
  unfold release
  simp only
  split <;> rfl

@[simp] theorem failed_release :
    (release j f).failed = match j.outcome with
      | some (.error _) => f.failed + 1
      | _ => f.failed := by
  unfold release
  simp only
  split <;> rfl

/-- The place is given to the record that waits. -/
theorem release_of_waiting {r : InboundRecord} (h : f.intake.waiting = some r) :
    (release j f).scene = f.scene.callFor .take ∧
      (release j f).intake = { f.intake with waiting := none, admitted := some r } := by
  unfold release
  simp only [h]
  exact ⟨rfl, rfl⟩

theorem release_of_none (h : f.intake.waiting = none) :
    (release j f).scene = f.scene ∧ (release j f).intake = f.intake := by
  unfold release
  simp only [h]
  exact ⟨trivial, trivial⟩

end release

/-- The floor while a turn is carried out. -/
def popped (f : Floor τ σ) (rest : List Turn) : Floor τ σ :=
  { f with scene := { f.scene with turns := rest } }

/-- What a floor becomes by a turn. -/
inductive Turned (ad : Adapter τ σ) (s : Settings) (a : Arena) (f : Floor τ σ) (rest : List Turn) :
    Turn → Floor τ σ → Prop where
  | takes : Turned ad s a f rest .take ((f.popped rest).take s a)
  | polls : Turned ad s a f rest .poll ((f.popped rest).callFor .take)
  /-- The record is not under way any more. -/
  | late {t : Turn} {id : Nat} (about : t.job? = some id) (missing : ∀ j ∈ f.jobs, j.id ≠ id) :
      Turned ad s a f rest t (f.popped rest)
  | enters {j : Job τ} {scene : Scene σ} (hj : j ∈ f.jobs) (some_ : j.lanes ≠ [])
      (world : scene.world = f.scene.world)
      (changes : (f.popped rest).scene.Changes scene 0
        (j.laneIds.map fun id => Turn.lane id .goOn : List Turn)) :
      Turned ad s a f rest (.enter j.id) { f with scene }
  | drops {j : Job τ} (hj : j ∈ f.jobs) (none_ : j.lanes = []) :
      Turned ad s a f rest (.enter j.id)
        (noteHandled j (f.scene.world.carryOut ad (drop s j.record)).1
          { f with scene := { f.scene with
            turns := rest
            world := (f.scene.world.carryOut ad (drop s j.record)).2 } })
  | astray {j : Job τ} {i : Nat} {cue : Cue} (hj : j ∈ f.jobs) (beyond : j.lanes[i]? = none) :
      Turned ad s a f rest (.lane ⟨j.id, i⟩ cue) (f.popped rest)
  | lane {j : Job τ} {i : Nat} {cue : Cue} {l : Lane τ} (hj : j ∈ f.jobs)
      (hl : j.lanes[i]? = some l) :
      Turned ad s a f rest (.lane ⟨j.id, i⟩ cue)
        (setJob { j with
            lanes := j.lanes.set i (l.act ad ⟨j.id, i⟩ cue (f.popped rest).scene).1 }
          { f with scene := (l.act ad ⟨j.id, i⟩ cue (f.popped rest).scene).2 })
  | tallies {j : Job τ} (hj : j ∈ f.jobs) :
      Turned ad s a f rest (.tally j.id) (tally j (f.popped rest))
  | settles {j : Job τ} (hj : j ∈ f.jobs) :
      Turned ad s a f rest (.settle j.id) (noteHandled j (.ok j.results) (f.popped rest))
  | releases {j : Job τ} (hj : j ∈ f.jobs) :
      Turned ad s a f rest (.release j.id) (release j (f.popped rest))

/-- All runs of a record get a turn. -/
theorem callAll_eq (ids : List LaneId) (f : Floor τ σ) :
    ∃ scene, ids.foldl (fun f id => f.callFor (.lane id .goOn)) f = { f with scene } ∧
      scene.world = f.scene.world ∧
      f.scene.Changes scene 0 (ids.map fun id => Turn.lane id .goOn : List Turn) := by
  induction ids generalizing f with
  | nil => exact ⟨f.scene, rfl, rfl, .refl _⟩
  | cons id ids ih =>
    obtain ⟨scene, heq, hworld, changes⟩ := ih (f.callFor (.lane id .goOn))
    refine ⟨scene, heq, hworld, ?_⟩
    have htrans := (Scene.changes_callFor f.scene (.lane id .goOn)).trans changes
    rwa [zero_add, Multiset.singleton_add, Multiset.cons_coe] at htrans

variable {t : Turn} {rest : List Turn}

theorem turned_withJob {id : Nat} {g : Job τ → Floor τ σ → Floor τ σ} (about : t.job? = some id)
    (here : ∀ j ∈ f.jobs, j.id = id → Turned ad s a f rest t (g j (f.popped rest))) :
    Turned ad s a f rest t (withJob id g (f.popped rest)) := by
  unfold withJob
  cases hjob : (f.popped rest).job? id with
  | none => exact .late about fun j hj => ne_of_job?_eq_none hjob hj
  | some j =>
    obtain ⟨hj, hid⟩ := job?_eq_some hjob
    exact here j hj hid

theorem turned_act (t : Turn) : Turned ad s a f rest t (act ad s a t (f.popped rest)) := by
  cases t with
  | take => exact .takes
  | poll => exact .polls
  | enter id =>
    refine turned_withJob rfl fun j hj hid => ?_
    subst hid
    unfold enter
    split
    · rename_i hnone
      exact .drops hj (List.isEmpty_iff.mp hnone)
    · rename_i hsome
      obtain ⟨scene, heq, hworld, changes⟩ := callAll_eq j.laneIds (f.popped rest)
      rw [heq]
      exact .enters hj (fun h => hsome (List.isEmpty_iff.mpr h)) hworld changes
  | lane id cue =>
    refine turned_withJob rfl fun j hj hid => ?_
    obtain ⟨job, i⟩ := id
    subst hid
    unfold laneTurn
    simp only
    split
    · rename_i hl
      exact .astray hj hl
    · rename_i l hl
      exact .lane hj hl
  | tally id =>
    refine turned_withJob rfl fun j hj hid => ?_
    subst hid
    exact .tallies hj
  | settle id =>
    refine turned_withJob rfl fun j hj hid => ?_
    subst hid
    exact .settles hj
  | release id =>
    refine turned_withJob rfl fun j hj hid => ?_
    subst hid
    exact .releases hj

theorem turn_eq_self (h : f.scene.turns = []) : f.turn ad s a = f := by
  unfold turn
  rw [h]

/-- A turn that has been called for is carried out. -/
theorem turn_cases (h : f.scene.turns = t :: rest) : Turned ad s a f rest t (f.turn ad s a) := by
  unfold turn
  rw [h]
  exact turned_act t

theorem changes_popped (h : f.scene.turns = t :: rest) :
    f.scene.Changes (f.popped rest).scene {t} 0 where
  pending := by
    show ((rest : List Turn) : Multiset Turn) + f.scene.alarms.causes + {t} = _
    rw [add_zero, Scene.pending, h, ← Multiset.cons_coe, ← Multiset.singleton_add, add_comm, add_assoc]
  count := Nat.le_refl _
  active _ hx := .inl hx

theorem pending_eq_popped (h : f.scene.turns = t :: rest) :
    f.scene.pending = t ::ₘ (f.popped rest).scene.pending := by
  have := (changes_popped h).pending
  rw [add_zero] at this
  rw [← this, add_comm, Multiset.singleton_add]

theorem mem_pending (h : f.scene.turns = t :: rest) : t ∈ f.scene.pending := by
  rw [pending_eq_popped h]
  exact Multiset.mem_cons_self _ _

/-- A turn takes itself away and does what it does. -/
theorem changes_turn {scene : Scene σ} (h : f.scene.turns = t :: rest)
    (changes : (f.popped rest).scene.Changes scene gone new) :
    f.scene.Changes scene ({t} + gone) new := by
  simpa using (changes_popped h).trans changes

/-! ## The loop that takes records -/

theorem waiting_takeAdmitted (f : Floor τ σ) :
    (f.takeAdmitted s a).intake.waiting = f.intake.waiting := by
  unfold takeAdmitted
  split <;> rfl

/-- What becomes of a floor when records are taken from a queue. -/
inductive Takes (s : Settings) (a : Arena) : List InboundRecord → Floor τ σ → Floor τ σ → Prop where
  | closes {queue : List InboundRecord} {f : Floor τ σ}
      (done : f.intake.isOver f.scene.world.timer = true) :
      Takes s a queue f { f with intake := { f.intake with queue, isOpen := false } }
  | polls {f : Floor τ σ} (on : f.intake.isOver f.scene.world.timer = false) :
      Takes s a [] f
        { f with
          intake := { f.intake with queue := [] }
          scene := (f.scene.setAlarm pollSeconds .poll).2 }
  | waits {r : InboundRecord} {queue : List InboundRecord} {f : Floor τ σ}
      (full : f.hasPlace s = false) :
      Takes s a (r :: queue) f { f with intake := { f.intake with queue, waiting := some r } }
  | takes {r : InboundRecord} {queue : List InboundRecord} {f f' : Floor τ σ}
      (place : f.hasPlace s = true) (more : Takes s a queue (f.takeOn s a r) f') :
      Takes s a (r :: queue) f f'

theorem takes_takeFrom (queue : List InboundRecord) (f : Floor τ σ) :
    Takes s a queue f (takeFrom s a queue f) := by
  induction queue generalizing f with
  | nil =>
    unfold takeFrom
    split
    · rename_i done
      exact .closes done
    · rename_i on
      exact .polls (Bool.eq_false_iff.mpr on)
  | cons r queue ih =>
    unfold takeFrom
    split
    · rename_i done
      exact .closes done
    · split
      · rename_i place
        exact .takes place (ih _)
      · rename_i full
        exact .waits (Bool.eq_false_iff.mpr full)

end Floor
end Conveyor.Worker
