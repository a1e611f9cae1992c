import Conveyor.Proofs.Worker.Floor

/-!
# The floor at every moment

Of each record under way just those turns are pending that belong to its phase, and there is one loop
that takes records. Both hold when a worker begins, and every turn and all waiting keep them.
-/

namespace Conveyor.Worker.Floor

variable {τ σ : Type} {ad : Adapter τ σ} {s : Settings} {a : Arena} {f f' : Floor τ σ}
  {j j' : Job τ} {gone new : Multiset Turn} {t : Turn} {rest : List Turn}

/-- What holds of the records under way at every moment. -/
structure Steady (f : Floor τ σ) : Prop where
  numbered : f.scene.Numbered
  nodup : (f.jobs.map Job.id).Nodup
  lt : ∀ j ∈ f.jobs, j.id < f.taken
  /-- What is pending is about records that have been taken on. -/
  known : ∀ t ∈ f.scene.pending, ∀ id, t.job? = some id → id < f.taken
  owns : ∀ j ∈ f.jobs, ∀ (i : Nat) (l : Lane τ), j.lanes[i]? = some l → l.Owns ⟨j.id, i⟩ f.scene
  phase : ∀ j ∈ f.jobs, j.Phase f.scene.pending

/-- The records are taken in one loop: either it has a turn or will have one, or a record waits for
a place. -/
structure Sound (f : Floor τ σ) : Prop extends Steady f where
  loop : f.scene.pending.count .take + f.scene.pending.count .poll + f.intake.waiting.toList.length
    = if f.intake.isOpen then 1 else 0
  admitted : f.intake.admitted.toList.length ≤ f.scene.pending.count .take

/-- While a record waits for a place none has been given one. -/
theorem Sound.admitted_of_waiting (hf : f.Sound) (waiting : f.intake.waiting ≠ none) :
    f.intake.admitted = none := by
  have hloop := hf.loop
  have hadmitted := hf.admitted
  obtain ⟨r, hr⟩ := Option.ne_none_iff_exists'.mp waiting
  rw [hr, Option.toList_some, List.length_singleton] at hloop
  rw [← Option.toList_eq_nil_iff, ← List.length_eq_zero_iff]
  split at hloop
  · omega
  · omega

theorem Steady.phase_popped (hf : f.Steady) (h : f.scene.turns = t :: rest) (hj : j ∈ f.jobs) :
    j.Phase (t ::ₘ (f.popped rest).scene.pending) :=
  pending_eq_popped h ▸ hf.phase j hj

/-! ## A record that gets further -/

/-- One record gets further: none but its own turns come and go, and those that are then pending
belong to its phase. -/
structure Advances (f f' : Floor τ σ) (j j' : Job τ) (gone new : Multiset Turn) : Prop where
  mem : j ∈ f.jobs
  id : j'.id = j.id
  jobs : f'.jobs = (f.setJob j').jobs
  taken : f'.taken = f.taken
  intake : f'.intake = f.intake
  changes : f.scene.Changes f'.scene gone new
  gone : ∀ t ∈ gone, t.job? = some j.id
  new : ∀ t ∈ new, t.job? = some j.id
  owns : ∀ (i : Nat) (l : Lane τ), j'.lanes[i]? = some l → l.Owns ⟨j.id, i⟩ f'.scene
  phase : j'.Phase f'.scene.pending

theorem Steady.advanced (hf : f.Steady) (ha : Advances f f' j j' gone new) : f'.Steady where
  numbered := ha.changes.numbered hf.numbered
  nodup := by
    rw [ha.jobs, map_id_setJob]
    exact hf.nodup
  lt k hk := by
    rw [ha.taken]
    rcases mem_setJob (ha.jobs ▸ hk) with rfl | ⟨hk, -⟩
    · rw [ha.id]
      exact hf.lt j ha.mem
    · exact hf.lt k hk
  known t ht i hi := by
    rw [ha.taken]
    have hmem : t ∈ f.scene.pending + new := ha.changes.pending ▸ Multiset.mem_add.mpr (.inl ht)
    rcases Multiset.mem_add.mp hmem with ht | ht
    · exact hf.known t ht i hi
    · obtain rfl := Option.some.inj (hi.symm.trans (ha.new t ht))
      exact hf.lt j ha.mem
  owns k hk i l hl := by
    rcases mem_setJob (ha.jobs ▸ hk) with rfl | ⟨hk, -⟩
    · rw [ha.id]
      exact ha.owns i l hl
    · exact (hf.owns k hk i l hl).changes ha.changes
  phase k hk := by
    rcases mem_setJob (ha.jobs ▸ hk) with rfl | ⟨hk, hne⟩
    · exact ha.phase
    · rw [ha.id] at hne
      refine (hf.phase k hk).changes ha.changes (fun t ht h => ?_) fun t ht h => ?_
      · exact hne (Option.some.inj (h.symm.trans (ha.gone t ht)))
      · exact hne (Option.some.inj (h.symm.trans (ha.new t ht)))

/-- The loop that takes records is not touched. -/
theorem Sound.advanced (hf : f.Sound) (ha : Advances f f' j j' gone new) : f'.Sound := by
  have hother : ∀ {u : Turn}, u.job? = none → ∀ {P : Multiset Turn},
      (∀ t ∈ P, t.job? = some j.id) → u ∉ P := by
    intro u hu P hP hmem
    rw [hP u hmem] at hu
    cases hu
  have hsame : ∀ u : Turn, u.job? = none → f'.scene.pending.count u = f.scene.pending.count u :=
    fun u hu => ha.changes.count_eq (hother hu ha.gone) (hother hu ha.new)
  refine ⟨hf.toSteady.advanced ha, ?_, ?_⟩
  · rw [hsame .take rfl, hsame .poll rfl, ha.intake]
    exact hf.loop
  · rw [hsame .take rfl, ha.intake]
    exact hf.admitted

/-- A turn of the record that leaves its runs as they are. -/
theorem Steady.advances (hf : f.Steady) (h : f.scene.turns = t :: rest) (hj : j ∈ f.jobs)
    (about : t.job? = some j.id) (j' : Job τ) (id : j'.id = j.id) (lanes : j'.lanes = j.lanes)
    (jobs : f'.jobs = (f.setJob j').jobs) (taken : f'.taken = f.taken)
    (intake : f'.intake = f.intake) (changes : (f.popped rest).scene.Changes f'.scene 0 new)
    (hnew : ∀ u ∈ new, u.job? = some j.id)
    (phase : j.Phase (t ::ₘ (f.popped rest).scene.pending) →
      j'.Phase ((f.popped rest).scene.pending + new)) : Advances f f' j j' {t} new where
  mem := hj
  id := id
  jobs := jobs
  taken := taken
  intake := intake
  changes := by simpa using changes_turn h changes
  gone u hu := Multiset.mem_singleton.mp hu ▸ about
  new := hnew
  owns i l hl := by
    rw [lanes] at hl
    exact ((hf.owns j hj i l hl).changes (changes_popped h)).changes changes
  phase := by
    have hpending := changes.pending
    rw [add_zero] at hpending
    rw [hpending]
    exact phase (hf.phase_popped h hj)

theorem setJob_self (hf : f.Steady) (hj : j ∈ f.jobs) : (f.setJob j).jobs = f.jobs := by
  refine (List.map_congr_left fun k hk => ?_).trans (List.map_id _)
  split
  · rename_i hid
    exact List.inj_on_of_nodup_map hf.nodup hj hk hid.symm
  · rfl

/-- A turn of the record that calls for another. -/
theorem Steady.advances_calling {u : Turn} (hf : f.Steady) (h : f.scene.turns = t :: rest)
    (hj : j ∈ f.jobs) (about : t.job? = some j.id) (next : u.job? = some j.id) (j' : Job τ)
    (id : j'.id = j.id) (lanes : j'.lanes = j.lanes) (jobs : f'.jobs = (f.setJob j').jobs)
    (taken : f'.taken = f.taken) (intake : f'.intake = f.intake)
    (changes : (f.popped rest).scene.Changes f'.scene 0 {u})
    (phase : j.Phase (t ::ₘ (f.popped rest).scene.pending) →
      j'.Phase (u ::ₘ (f.popped rest).scene.pending)) : Advances f f' j j' {t} {u} := by
  refine hf.advances h hj about j' id lanes jobs taken intake changes ?_ fun hphase => ?_
  · exact fun v hv => Multiset.mem_singleton.mp hv ▸ next
  · rw [add_comm, Multiset.singleton_add]
    exact phase hphase

/-- A turn of the record that calls for none. -/
theorem Steady.advances_quietly (hf : f.Steady) (h : f.scene.turns = t :: rest) (hj : j ∈ f.jobs)
    (about : t.job? = some j.id) (j' : Job τ) (id : j'.id = j.id) (lanes : j'.lanes = j.lanes)
    (jobs : f'.jobs = (f.setJob j').jobs) (taken : f'.taken = f.taken)
    (intake : f'.intake = f.intake) (scene : f'.scene = (f.popped rest).scene)
    (phase : j.Phase (t ::ₘ (f.popped rest).scene.pending) →
      j'.Phase (f.popped rest).scene.pending) : Advances f f' j j' {t} 0 := by
  refine hf.advances h hj about j' id lanes jobs taken intake (scene ▸ .refl _) ?_ fun hphase => ?_
  · exact fun u hu => absurd hu (Multiset.notMem_zero u)
  · rw [add_zero]
    exact phase hphase

/-- All runs of a record get a turn. -/
theorem Steady.advances_enter {scene : Scene σ} (hf : f.Steady)
    (h : f.scene.turns = .enter j.id :: rest) (hj : j ∈ f.jobs) (some_ : j.lanes ≠ [])
    (changes : (f.popped rest).scene.Changes scene 0
      (j.laneIds.map fun id => Turn.lane id .goOn : List Turn)) :
    Advances f { f with scene } j j {.enter j.id}
      (j.laneIds.map fun id => Turn.lane id .goOn : List Turn) := by
  refine hf.advances h hj rfl j rfl rfl (setJob_self hf hj).symm rfl rfl changes ?_ ?_
  · intro u hu
    obtain ⟨id, hid, rfl⟩ := List.mem_map.mp (Multiset.mem_coe.mp hu)
    obtain ⟨i, -, rfl⟩ := List.mem_map.mp hid
    rfl
  · exact fun hphase => hphase.enter some_ rfl

theorem Steady.advances_drop (hf : f.Steady) (h : f.scene.turns = .enter j.id :: rest)
    (hj : j ∈ f.jobs) (none_ : j.lanes = []) (w : World σ)
    (outcome : Except Fault (List RunResult)) :
    Advances f
      (noteHandled j outcome { f with scene := { f.scene with turns := rest, world := w } }) j
      { j with outcome := some outcome } {.enter j.id} {.release j.id} := by
  refine hf.advances_calling h hj rfl rfl { j with outcome := some outcome } rfl rfl rfl rfl rfl ?_
    fun hphase => hphase.drop none_ outcome
  have changes := (Scene.Changes.world (f.popped rest).scene w).trans
    (Scene.changes_callFor _ (.release j.id))
  rw [zero_add, zero_add] at changes
  exact changes

/-- A turn for a run that there is not. -/
theorem Steady.advances_astray {i : Nat} {cue : Cue} (hf : f.Steady)
    (h : f.scene.turns = .lane ⟨j.id, i⟩ cue :: rest) (hj : j ∈ f.jobs)
    (beyond : j.lanes[i]? = none) : Advances f (f.popped rest) j j {.lane ⟨j.id, i⟩ cue} 0 :=
  hf.advances_quietly h hj rfl j rfl rfl (setJob_self hf hj).symm rfl rfl rfl fun hphase =>
    hphase.astray beyond

/-- A turn of a run. -/
theorem Steady.advances_lane (ad : Adapter τ σ) {i : Nat} {cue : Cue} {l : Lane τ}
    (hf : f.Steady) (h : f.scene.turns = .lane ⟨j.id, i⟩ cue :: rest) (hj : j ∈ f.jobs)
    (hl : j.lanes[i]? = some l) :
    ∃ gone new,
      l.Moves ⟨j.id, i⟩ cue (l.act ad ⟨j.id, i⟩ cue (f.popped rest).scene).1 gone new ∧
      Advances f
        (setJob { j with
            lanes := j.lanes.set i (l.act ad ⟨j.id, i⟩ cue (f.popped rest).scene).1 }
          { f with scene := (l.act ad ⟨j.id, i⟩ cue (f.popped rest).scene).2 }) j
        { j with lanes := j.lanes.set i (l.act ad ⟨j.id, i⟩ cue (f.popped rest).scene).1 }
        ({.lane ⟨j.id, i⟩ cue} + gone) new := by
  have hpop := changes_popped h
  obtain ⟨gone, new, moves, changes, owns⟩ :=
    Lane.moved_act ad (hpop.numbered hf.numbered) cue ((hf.owns j hj i l hl).changes hpop)
  obtain ⟨hgone, hnew⟩ := moves.own
  refine ⟨gone, new, moves, hj, rfl, rfl, rfl, rfl, changes_turn h changes, fun u hu => ?_,
    fun u hu => ?_, fun k m hm => ?_, ?_⟩
  · rcases Multiset.mem_add.mp hu with hu | hu
    · exact Multiset.mem_singleton.mp hu ▸ rfl
    · obtain ⟨cue', rfl⟩ := hgone u hu
      rfl
  · rcases hnew with ⟨-, -, rfl⟩ | ⟨-, -, hnew⟩
    · exact Multiset.mem_singleton.mp hu ▸ rfl
    · obtain ⟨cue', rfl⟩ := hnew u hu
      rfl
  · rw [List.getElem?_set] at hm
    split at hm
    · split at hm
      · obtain rfl := Option.some.inj hm
        rename_i hik _
        exact hik ▸ owns
      · cases hm
    · exact ((hf.owns j hj k m hm).changes hpop).changes changes
  · exact (hf.phase_popped h hj).lane hl moves changes

/-- The end of a run is counted. -/
theorem Steady.advances_tally (hf : f.Steady) (h : f.scene.turns = .tally j.id :: rest)
    (hj : j ∈ f.jobs) :
    ∃ new, (new = 0 ∨ new = {.settle j.id}) ∧
      Advances f (tally j (f.popped rest)) j { j with counted := j.counted + 1 } {.tally j.id}
        new := by
  unfold tally
  simp only
  split
  · rename_i hall
    refine ⟨_, .inr rfl, hf.advances_calling h hj rfl rfl _ rfl rfl rfl rfl rfl
      (Scene.changes_callFor (f.popped rest).scene _) fun hphase => ?_⟩
    simpa only [if_pos hall] using hphase.tally
  · rename_i hmore
    refine ⟨_, .inl rfl, hf.advances_quietly h hj rfl _ rfl rfl rfl rfl rfl rfl fun hphase => ?_⟩
    simpa only [if_neg hmore] using hphase.tally

theorem Steady.advances_settle (hf : f.Steady) (h : f.scene.turns = .settle j.id :: rest)
    (hj : j ∈ f.jobs) :
    Advances f (noteHandled j (.ok j.results) (f.popped rest)) j
      { j with outcome := some (.ok j.results) } {.settle j.id} {.release j.id} :=
  hf.advances_calling h hj rfl rfl _ rfl rfl rfl rfl rfl
    (Scene.changes_callFor (f.popped rest).scene _) fun hphase => hphase.settle (.ok j.results)

/-! ## Records that come and go -/

/-- Turns that are about no record under way do not matter, nor do records that are gone. -/
theorem Steady.dismiss (hf : f.Steady) (changes : f.scene.Changes f'.scene gone new)
    (jobs : ∀ k ∈ f'.jobs, k ∈ f.jobs) (nodup : (f'.jobs.map Job.id).Nodup)
    (taken : f'.taken = f.taken) (hgone : ∀ t ∈ gone, ∀ k ∈ f'.jobs, t.job? ≠ some k.id)
    (hnew : ∀ t ∈ new, t.job? = none) : f'.Steady where
  numbered := changes.numbered hf.numbered
  nodup := nodup
  lt k hk := taken ▸ hf.lt k (jobs k hk)
  known t ht i hi := by
    rw [taken]
    have hmem : t ∈ f.scene.pending + new := changes.pending ▸ Multiset.mem_add.mpr (.inl ht)
    rcases Multiset.mem_add.mp hmem with ht | ht
    · exact hf.known t ht i hi
    · rw [hnew t ht] at hi
      cases hi
  owns k hk i l hl := (hf.owns k (jobs k hk) i l hl).changes changes
  phase k hk := by
    refine (hf.phase k (jobs k hk)).changes changes (fun t ht => hgone t ht k hk) fun t ht h => ?_
    rw [hnew t ht] at h
    cases h

/-- A record that is taken on is about to enter. -/
theorem Steady.takeOn (hf : f.Steady) (r : InboundRecord) : (f.takeOn s a r).Steady := by
  have changes := Scene.changes_callFor f.scene (.enter f.taken)
  have hunknown : ∀ t, t.job? = some f.taken → t ∉ f.scene.pending := fun t ht hmem =>
    Nat.lt_irrefl _ (hf.known t hmem _ ht)
  have hsplit : ∀ k ∈ (f.takeOn s a r).jobs, k ∈ f.jobs ∨ k =
      { id := f.taken, record := r,
        lanes := (a.forSource r.sourceKey).map fun pw => .going (runOf s r pw) } := by
    intro k hk
    exact (List.mem_append.mp hk).imp_right List.mem_singleton.mp
  refine ⟨changes.numbered hf.numbered, ?_, fun k hk => ?_, fun t ht i hi => ?_,
    fun k hk i l hl => ?_, fun k hk => ?_⟩
  · show ((f.jobs ++ [_]).map Job.id).Nodup
    rw [List.map_append, List.nodup_append]
    refine ⟨hf.nodup, List.pairwise_singleton _ _, fun i hi k hk => ?_⟩
    obtain ⟨m, hm, rfl⟩ := List.mem_map.mp hi
    obtain rfl := List.mem_singleton.mp hk
    exact Nat.ne_of_lt (hf.lt m hm)
  · rcases hsplit k hk with hk | rfl
    · exact Nat.lt_succ_of_lt (hf.lt k hk)
    · exact Nat.lt_succ_self _
  · have hmem : t ∈ Turn.enter f.taken ::ₘ f.scene.pending := by
      rwa [← Scene.pending_callFor]
    rcases Multiset.mem_cons.mp hmem with rfl | ht
    · obtain rfl := Option.some.inj hi
      exact Nat.lt_succ_self _
    · exact Nat.lt_succ_of_lt (hf.known t ht i hi)
  · rcases hsplit k hk with hk | rfl
    · exact (hf.owns k hk i l hl).changes changes
    · obtain ⟨pw, -, rfl⟩ := List.mem_map.mp (List.mem_of_getElem? hl)
      exact trivial
  · rcases hsplit k hk with hk | rfl
    · refine (hf.phase k hk).changes changes (fun t ht => absurd ht (Multiset.notMem_zero t)) ?_
      intro t ht h
      obtain rfl := Multiset.mem_singleton.mp ht
      exact Nat.ne_of_lt (hf.lt k hk) (Option.some.inj h).symm
    · have hcount : ∀ t, t.job? = some f.taken → t ≠ .enter f.taken →
          ((f.takeOn s a r).scene.pending).count t = 0 := by
        intro t ht hne
        rw [show (f.takeOn s a r).scene.pending = _ from Scene.pending_callFor _ _,
          Multiset.count_cons_of_ne hne]
        exact Multiset.count_eq_zero.mpr (hunknown t ht)
      refine .entering ⟨?_, hcount _ rfl nofun, hcount _ rfl nofun, hcount _ rfl nofun⟩ ?_ rfl ?_
        rfl
      · rw [show (f.takeOn s a r).scene.pending = _ from Scene.pending_callFor _ _,
          Multiset.count_cons_self, Multiset.count_eq_zero.mpr (hunknown _ rfl)]
      · intro i cue
        exact Multiset.count_eq_zero.mp (hcount _ rfl nofun)
      · intro l hl
        obtain ⟨pw, -, rfl⟩ := List.mem_map.mp hl
        exact ⟨_, rfl⟩

/-- A record that leaves gives its place to the one that waits for it, if there is one. -/
theorem Steady.release (hf : f.Steady) (h : f.scene.turns = .release j.id :: rest) :
    (release j (f.popped rest)).Steady := by
  have hjobs : ∀ k ∈ (Floor.release j (f.popped rest)).jobs, k ∈ f.jobs ∧ k.id ≠ j.id := by
    intro k hk
    rw [jobs_release] at hk
    exact ⟨List.mem_of_mem_filter hk, by simpa using List.of_mem_filter hk⟩
  have hnodup : ((Floor.release j (f.popped rest)).jobs.map Job.id).Nodup := by
    rw [jobs_release]
    exact hf.nodup.sublist (List.filter_sublist.map _)
  have hown : ∀ u ∈ ({.release j.id} : Multiset Turn),
      ∀ k ∈ (Floor.release j (f.popped rest)).jobs, u.job? ≠ some k.id := by
    intro u hu k hk heq
    obtain rfl := Multiset.mem_singleton.mp hu
    exact (hjobs k hk).2 (Option.some.inj heq).symm
  cases hwaiting : f.intake.waiting with
  | some r =>
    obtain ⟨hscene, -⟩ := release_of_waiting j (f.popped rest) hwaiting
    have changes := Scene.changes_callFor (f.popped rest).scene .take
    rw [← hscene] at changes
    refine hf.dismiss (changes_turn h changes) (fun k hk => (hjobs k hk).1) hnodup
      (taken_release _ _) (by rwa [add_zero]) fun u hu => ?_
    exact Multiset.mem_singleton.mp hu ▸ rfl
  | none =>
    obtain ⟨hscene, -⟩ := release_of_none j (f.popped rest) hwaiting
    have hpop := changes_popped h
    rw [← hscene] at hpop
    exact hf.dismiss hpop (fun k hk => (hjobs k hk).1) hnodup (taken_release _ _) hown fun u hu =>
      absurd hu (Multiset.notMem_zero u)

theorem count_popped {u : Turn} (h : f.scene.turns = t :: rest) (hne : u ≠ t) :
    (f.popped rest).scene.pending.count u = f.scene.pending.count u := by
  rw [pending_eq_popped h, Multiset.count_cons_of_ne hne]

theorem Sound.release (hf : f.Sound) (h : f.scene.turns = .release j.id :: rest) :
    (release j (f.popped rest)).Sound := by
  have htake : (f.popped rest).scene.pending.count .take = f.scene.pending.count .take :=
    count_popped h nofun
  have hpoll : (f.popped rest).scene.pending.count .poll = f.scene.pending.count .poll :=
    count_popped h nofun
  have hloop := hf.loop
  have hadmitted := hf.admitted
  rw [← htake] at hloop hadmitted
  rw [← hpoll] at hloop
  cases hwaiting : f.intake.waiting with
  | some r =>
    -- the turn to take the record on takes the place of its waiting
    obtain ⟨hscene, hintake⟩ := release_of_waiting j (f.popped rest) hwaiting
    rw [hwaiting] at hloop
    refine ⟨hf.toSteady.release h, ?_, ?_⟩
    · rw [hscene, hintake]
      refine Eq.trans ?_ hloop
      simp only [Scene.pending_callFor, Multiset.count_cons_self, ne_eq, reduceCtorEq,
        not_false_eq_true, Multiset.count_cons_of_ne, Option.toList_none, Option.toList_some,
        List.length_nil, List.length_cons]
      omega
    · rw [hscene, hintake]
      simp only [Scene.pending_callFor, Multiset.count_cons_self, Option.toList_some,
        List.length_cons, List.length_nil]
      omega
  | none =>
    obtain ⟨hscene, hintake⟩ := release_of_none j (f.popped rest) hwaiting
    refine ⟨hf.toSteady.release h, ?_, ?_⟩
    · rw [hscene, hintake]
      exact hloop
    · rw [hscene, hintake]
      exact hadmitted

/-- The loop is to look at the queue again. -/
theorem Sound.poll (hf : f.Sound) (h : f.scene.turns = .poll :: rest) :
    ((f.popped rest).callFor .take).Sound := by
  have hloop := hf.loop
  have hadmitted := hf.admitted
  rw [pending_eq_popped h] at hloop hadmitted
  simp only [Multiset.count_cons_self, ne_eq, reduceCtorEq, not_false_eq_true,
    Multiset.count_cons_of_ne] at hloop hadmitted
  have changes := changes_turn h (Scene.changes_callFor (f.popped rest).scene .take)
  refine ⟨hf.toSteady.dismiss changes (fun _ h => h) hf.nodup rfl (fun u hu k _ => ?_)
    fun u hu => Multiset.mem_singleton.mp hu ▸ rfl, Eq.trans ?_ hloop, ?_⟩
  · obtain rfl : u = .poll := by simpa using hu
    nofun
  · show Multiset.count _ (Scene.callFor _ _).pending + Multiset.count _ (Scene.callFor _ _).pending
      + f.intake.waiting.toList.length = _
    simp only [Scene.pending_callFor, Multiset.count_cons_self, ne_eq, reduceCtorEq,
      not_false_eq_true, Multiset.count_cons_of_ne]
    omega
  · show f.intake.admitted.toList.length ≤ Multiset.count _ (Scene.callFor _ _).pending
    rw [Scene.pending_callFor, Multiset.count_cons_self]
    exact Nat.le_succ_of_le hadmitted

/-- A turn about a record that is not under way any more. -/
theorem Sound.late {id : Nat} (hf : f.Sound) (h : f.scene.turns = t :: rest)
    (about : t.job? = some id) (missing : ∀ j ∈ f.jobs, j.id ≠ id) : (f.popped rest).Sound := by
  have hne : ∀ u : Turn, u.job? = none → u ≠ t := by
    rintro u hu rfl
    rw [hu] at about
    cases about
  refine ⟨hf.toSteady.dismiss (changes_popped h) (fun _ h => h) hf.nodup rfl
    (fun u hu k hk heq => ?_) fun u hu => absurd hu (Multiset.notMem_zero u), ?_, ?_⟩
  · obtain rfl := Multiset.mem_singleton.mp hu
    exact missing k hk (Option.some.inj (heq.symm.trans about))
  · rw [count_popped h (hne .take rfl), count_popped h (hne .poll rfl)]
    exact hf.loop
  · rw [count_popped h (hne .take rfl)]
    exact hf.admitted

/-- Every turn but that of the loop keeps the floor in order. -/
theorem Sound.turned (hf : f.Sound) (h : f.scene.turns = t :: rest)
    (turned : Turned ad s a f rest t f') (other : t ≠ .take) : f'.Sound := by
  have hsteady := hf.toSteady
  cases turned with
  | takes => exact absurd rfl other
  | polls => exact hf.poll h
  | late about missing => exact hf.late h about missing
  | enters hj some_ world changes => exact hf.advanced (hsteady.advances_enter h hj some_ changes)
  | drops hj none_ => exact hf.advanced (hsteady.advances_drop h hj none_ _ _)
  | astray hj beyond => exact hf.advanced (hsteady.advances_astray h hj beyond)
  | lane hj hl =>
    obtain ⟨gone, new, -, hlane⟩ := hsteady.advances_lane ad h hj hl
    exact hf.advanced hlane
  | tallies hj =>
    obtain ⟨new, -, htally⟩ := hsteady.advances_tally h hj
    exact hf.advanced htally
  | settles hj => exact hf.advanced (hsteady.advances_settle h hj)
  | releases hj => exact hf.release h

/-! ## The loop -/

theorem Steady.congr (hf : f.Steady) (scene : f'.scene = f.scene) (jobs : f'.jobs = f.jobs)
    (taken : f'.taken = f.taken) : f'.Steady := by
  obtain ⟨numbered, nodup, lt, known, owns, phase⟩ := hf
  constructor <;> simpa only [scene, jobs, taken]

/-- The loop has its turn: none is pending for it. -/
structure Taking (f : Floor τ σ) : Prop where
  steady : f.Steady
  take : f.scene.pending.count .take = 0
  poll : f.scene.pending.count .poll = 0
  waiting : f.intake.waiting = none
  admitted : f.intake.admitted = none
  isOpen : f.intake.isOpen = true

theorem pending_takeOn (r : InboundRecord) :
    (f.takeOn s a r).scene.pending = .enter f.taken ::ₘ f.scene.pending := Scene.pending_callFor _ _

theorem Taking.takeOn (hf : f.Taking) (r : InboundRecord) : (f.takeOn s a r).Taking where
  steady := hf.steady.takeOn r
  take := by
    rw [pending_takeOn, Multiset.count_cons_of_ne (show Turn.take ≠ .enter f.taken from nofun)]
    exact hf.take
  poll := by
    rw [pending_takeOn, Multiset.count_cons_of_ne (show Turn.poll ≠ .enter f.taken from nofun)]
    exact hf.poll
  waiting := hf.waiting
  admitted := hf.admitted
  isOpen := hf.isOpen

theorem Taking.takes {queue : List InboundRecord} (hf : f.Taking) (h : Takes s a queue f f') :
    f'.Sound := by
  induction h with
  | closes done =>
    refine ⟨hf.steady.congr rfl rfl rfl, ?_, ?_⟩
    · simp [hf.take, hf.poll, hf.waiting]
    · simp [hf.admitted]
  | @polls f on =>
    have changes := Scene.changes_setAlarm f.scene pollSeconds .poll
    refine ⟨hf.steady.dismiss changes (fun _ h => h) hf.steady.nodup rfl ?_ ?_, ?_, ?_⟩
    · exact fun u hu => absurd hu (Multiset.notMem_zero u)
    · intro u hu
      obtain rfl := Multiset.mem_singleton.mp hu
      rfl
    · simp [hf.take, hf.poll, hf.waiting, hf.isOpen]
    · simp [hf.admitted]
  | waits full =>
    refine ⟨hf.steady.congr rfl rfl rfl, ?_, ?_⟩
    · simp [hf.take, hf.poll, hf.isOpen]
    · simp [hf.admitted]
  | takes place more ih => exact ih (hf.takeOn _)

/-- The record that has got its place is taken on first. -/
theorem Sound.taking (hf : f.Sound) (h : f.scene.turns = .take :: rest) :
    ((f.popped rest).takeAdmitted s a).Taking := by
  have hloop := hf.loop
  have hpop := changes_popped h
  rw [pending_eq_popped h] at hloop
  simp only [Multiset.count_cons_self, ne_eq, reduceCtorEq, not_false_eq_true,
    Multiset.count_cons_of_ne] at hloop
  have hopen : f.intake.isOpen = true := by
    cases hopen : f.intake.isOpen with
    | true => rfl
    | false =>
      rw [hopen] at hloop
      simp only [Bool.false_eq_true, if_false] at hloop
      omega
  rw [hopen, if_pos rfl] at hloop
  have hsteady : (f.popped rest).Steady := by
    refine hf.toSteady.dismiss hpop (fun _ h => h) hf.nodup rfl (fun u hu k _ => ?_) fun u hu =>
      absurd hu (Multiset.notMem_zero u)
    obtain rfl := Multiset.mem_singleton.mp hu
    nofun
  have hwaiting : f.intake.waiting = none := by
    rw [← Option.toList_eq_nil_iff, ← List.length_eq_zero_iff]
    omega
  unfold takeAdmitted
  split
  · rename_i r _
    refine Taking.takeOn (f := { f.popped rest with
      intake := { f.intake with admitted := none } }) ⟨?_, ?_, ?_, hwaiting, rfl, hopen⟩ r
    · exact hsteady.congr rfl rfl rfl
    · show (f.popped rest).scene.pending.count .take = 0
      omega
    · show (f.popped rest).scene.pending.count .poll = 0
      omega
  · rename_i hadmitted
    exact ⟨hsteady, by omega, by omega, hwaiting, hadmitted, hopen⟩

/-- Every turn keeps the floor in order. -/
theorem Sound.turn (hf : f.Sound) : (f.turn ad s a).Sound := by
  cases h : f.scene.turns with
  | nil =>
    rw [turn_eq_self h]
    exact hf
  | cons t rest =>
    by_cases htake : t = .take
    · subst htake
      have heq : f.turn ad s a = (f.popped rest).take s a := by
        unfold Floor.turn
        rw [h]
        rfl
      rw [heq]
      exact (hf.taking h).takes (takes_takeFrom _ _)
    · exact hf.turned h (turn_cases h) htake

/-- So does the passing of time. -/
theorem Sound.wake (hf : f.Sound) : f.wake.Sound := by
  have changes := Scene.changes_wake f.scene
  have hpending : f.wake.scene.pending = f.scene.pending := f.scene.wake_spec.1
  refine ⟨hf.toSteady.dismiss changes (fun _ h => h) hf.nodup rfl ?_ ?_, ?_, ?_⟩
  · exact fun u hu => absurd hu (Multiset.notMem_zero u)
  · exact fun u hu => absurd hu (Multiset.notMem_zero u)
  · rw [hpending]
    exact hf.loop
  · rw [hpending]
    exact hf.admitted

end Conveyor.Worker.Floor
