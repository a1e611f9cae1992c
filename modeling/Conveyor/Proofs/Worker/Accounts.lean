import Conveyor.Proofs.Worker.Reached
import Conveyor.Proofs.Run.Journal
import Conveyor.Proofs.Worker.Trace
import Conveyor.Worker

/-!
# The accounts of a worker

Which records have been taken on, which are under way and which have been dealt with: every record
that is taken on is dealt with once, in the order of the queue those follow that have not been taken
on, and the queue is told of those that were dealt with without a fault.
-/

namespace Conveyor.Worker

open Activity

variable {τ σ : Type} {ad : Adapter τ σ} {s : Settings} {a : Arena}

/-! ## Records that no pipeline takes -/

/-- What comes of a record that no pipeline takes. -/
def dropOutcome (s : Settings) (now : Moment) : Except Fault (List RunResult) :=
  if s.logsDrops then
    (Journal.expiry now (s.droppedRetention.filter fun h => !h.isZero)).map fun _ => []
  else .ok []

/-- Whether a record is dealt with without a fault. -/
def handles (s : Settings) (a : Arena) (now : Moment) (r : InboundRecord) : Bool :=
  !(a.forSource r.sourceKey).isEmpty || (dropOutcome s now).isOk

/-- A record that no pipeline takes opens an entry of its own, if drops are logged. -/
theorem course_drop {r : InboundRecord} {events : List Event} {out : Except Fault (List RunResult)}
    {now : Moment} (h : Course (drop s r) events out)
    (clock : ∀ t : Moment, ⟨.now, t⟩ ∈ events → t = now) :
    out = dropOutcome s now ∧
      if s.logsDrops ∧ out.isOk then
        ∃ until_ id, logOps events = [.append (Run.droppedEntry r now until_ id)] ∧
          drawnIds events = [id]
      else logOps events = [] ∧ drawnIds events = [] := by
  unfold drop at h
  unfold dropOutcome
  cases hlogs : s.logsDrops with
  | false =>
    rw [hlogs] at h
    obtain ⟨rfl, rfl⟩ := course_pure_iff.mp h
    exact ⟨rfl, rfl, rfl⟩
  | true =>
    rw [hlogs] at h
    obtain ⟨before, after, entry, rfl, first, last⟩ := course_bind_iff.mp h
    obtain ⟨rfl, rfl⟩ := course_pure_iff.mp last
    rw [List.append_nil] at clock ⊢
    cases Run.opening_dropped first with
    | @refused created f never =>
      obtain rfl := clock created List.mem_cons_self
      rw [if_pos rfl, never]
      exact ⟨rfl, rfl, rfl⟩
    | @opened created until_ id due =>
      obtain rfl := clock created List.mem_cons_self
      rw [if_pos rfl, due]
      exact ⟨rfl, until_, id, rfl, rfl⟩

theorem carryOut_drop (ad : Adapter τ σ) (s : Settings) (r : InboundRecord) (w : World σ) :
    (w.carryOut ad (drop s r)).1 = dropOutcome s w.now ∧ (w.carryOut ad (drop s r)).2.now = w.now := by
  have hfollows := World.follows_carryOut ad (drop s r) w
  exact ⟨(course_drop (course_events _ _ _) hfollows.clock).1, hfollows.now⟩

/-! ## The accounts -/

/-- What the accounts have of a record under way. -/
def Job.account (j : Job τ) : Nat × InboundRecord × Bool × Option (Except Fault (List RunResult)) :=
  (j.id, j.record, j.lanes.isEmpty, j.outcome)

/-- How far a run has got is not in the accounts. -/
theorem Job.account_set (j : Job τ) (i : Nat) (l : Lane τ) :
    ({ j with lanes := j.lanes.set i l } : Job τ).account = j.account := by
  have hempty : (j.lanes.set i l).isEmpty = j.lanes.isEmpty := by
    cases j.lanes with
    | nil => rfl
    | cons m lanes => cases i <;> rfl
  unfold account
  rw [hempty]

/-- The records that have left the queue or are left in it. -/
def Intake.remaining (i : Intake) : List InboundRecord :=
  i.admitted.toList ++ i.waiting.toList ++ i.queue

namespace Floor

/-- The records of a queue are accounted for: `remaining` are those not taken on yet. -/
structure Accounts (s : Settings) (a : Arena) (queue : List InboundRecord) (now : Moment)
    (remaining : List InboundRecord) (f : Floor τ σ) : Prop where
  rest : queue.drop f.taken = remaining
  record : ∀ j ∈ f.jobs, queue[j.id]? = some j.record ∧
    j.lanes.isEmpty = (a.forSource j.record.sourceKey).isEmpty
  handled : ∀ h ∈ f.handled, queue[h.job]? = some h.record ∧ h.outcome.isOk = handles s a now h.record
  once : (f.handled.map Handled.job ++ (f.jobs.filter (·.outcome.isNone)).map Job.id).Perm
    (List.range f.taken)
  acked : f.acked = (f.handled.filter (·.outcome.isOk)).map (·.record.dataId)
  failed : f.failed + f.jobs.countP (fun j => j.outcome.any (!·.isOk)) =
    f.handled.countP (!·.outcome.isOk)
  now : f.scene.world.now = now

variable {f f' : Floor τ σ} {queue remaining : List InboundRecord} {now : Moment} {j j' : Job τ}

/-- A change that the accounts do not have keeps them. -/
theorem Accounts.congr (hf : f.Accounts s a queue now remaining)
    (jobs : f'.jobs.map Job.account = f.jobs.map Job.account) (taken : f'.taken = f.taken)
    (handled : f'.handled = f.handled) (acked : f'.acked = f.acked) (failed : f'.failed = f.failed)
    (moment : f'.scene.world.now = f.scene.world.now) : f'.Accounts s a queue now remaining := by
  have hids : ∀ l : List (Job τ), (l.filter (·.outcome.isNone)).map Job.id =
      ((l.map Job.account).filter (·.2.2.2.isNone)).map (·.1) := by
    intro l
    rw [List.filter_map, List.map_map]
    rfl
  have hfaults : ∀ l : List (Job τ), l.countP (fun j => j.outcome.any (!·.isOk)) =
      (l.map Job.account).countP (fun x => x.2.2.2.any (!·.isOk)) := by
    intro l
    rw [List.countP_map]
    rfl
  obtain ⟨rest, record, handled', once, acked', failed', now'⟩ := hf
  refine ⟨by rw [taken, rest], fun j hj => ?_, by rwa [handled], ?_, by rw [acked, handled, acked'], ?_,
    moment.trans now'⟩
  · obtain ⟨k, hk, heq⟩ := List.mem_map.mp (jobs ▸ List.mem_map_of_mem hj)
    injection heq with hid heq
    injection heq with hrecord heq
    injection heq with hlanes
    rw [← hid, ← hrecord, ← hlanes]
    exact record k hk
  · rw [handled, taken, hids, jobs, ← hids]
    exact once
  · rw [handled, failed, hfaults, jobs, ← hfaults]
    exact failed'

/-- A record of which the accounts have the same as before. -/
theorem account_setJob (nodup : (f.jobs.map Job.id).Nodup) (hj : j ∈ f.jobs) (j' : Job τ)
    (same : j'.account = j.account) :
    (f.setJob j').jobs.map Job.account = f.jobs.map Job.account := by
  obtain ⟨before, after, hjobs, hset, -⟩ := exists_split nodup hj
  have hid : j'.id = j.id := congrArg (·.1) same
  rw [hset j' hid, hjobs, List.map_append, List.map_append, List.map_cons, List.map_cons, same]

/-- A record that is taken on is the next one of the queue. -/
theorem Accounts.takeOn {r : InboundRecord} (hf : f.Accounts s a queue now (r :: remaining)) :
    (f.takeOn s a r).Accounts s a queue now remaining := by
  obtain ⟨hrest, record, handled, once, acked, failed, hnow⟩ := hf
  obtain ⟨hlt, hget⟩ : ∃ h : f.taken < queue.length, queue[f.taken] = r := by
    have hlt : f.taken < queue.length := by
      by_contra h
      rw [List.drop_eq_nil_of_le (Nat.not_lt.mp h)] at hrest
      cases hrest
    rw [List.drop_eq_getElem_cons hlt] at hrest
    exact ⟨hlt, (List.cons.inj hrest).1⟩
  refine ⟨?_, fun k hk => ?_, handled, ?_, acked, ?_, hnow⟩
  · rw [List.drop_eq_getElem_cons hlt] at hrest
    exact (List.cons.inj hrest).2
  · rcases List.mem_append.mp hk with hk | hk
    · exact record k hk
    · obtain rfl := List.mem_singleton.mp hk
      exact ⟨List.getElem?_eq_some_iff.mpr ⟨hlt, hget⟩, List.isEmpty_map⟩
  · show (f.handled.map Handled.job ++ ((f.jobs ++ [_]).filter _).map Job.id).Perm
      (List.range (f.taken + 1))
    rw [List.filter_append, List.map_append, List.range_succ, ← List.append_assoc]
    exact once.append_right _
  · show f.failed + (f.jobs ++ [_]).countP _ = _
    rw [List.countP_append]
    exact failed

theorem Accounts.takes {rest : List InboundRecord} (hf : f.Accounts s a queue now rest)
    (taking : f.intake.waiting = none ∧ f.intake.admitted = none) (h : Takes s a rest f f') :
    f'.Accounts s a queue now f'.intake.remaining := by
  induction h with
  | @closes rest f done =>
    unfold Intake.remaining
    rw [taking.1, taking.2]
    exact hf.congr rfl rfl rfl rfl rfl rfl
  | @polls f on =>
    unfold Intake.remaining
    rw [taking.1, taking.2]
    exact hf.congr rfl rfl rfl rfl rfl rfl
  | @waits r rest f full =>
    unfold Intake.remaining
    rw [taking.2]
    exact hf.congr rfl rfl rfl rfl rfl rfl
  | takes place more ih => exact ih hf.takeOn taking

/-- A record that is under way has been dealt with. -/
theorem Accounts.noteHandled {outcome : Except Fault (List RunResult)}
    (hf : f.Accounts s a queue now remaining) (nodup : (f.jobs.map Job.id).Nodup) (hj : j ∈ f.jobs)
    (open_ : j.outcome = none) (right : outcome.isOk = handles s a now j.record) :
    (noteHandled j outcome f).Accounts s a queue now remaining := by
  obtain ⟨hrest, record, handled, once, acked, failed, hnow⟩ := hf
  obtain ⟨before, after, hjobs, hset, -⟩ := exists_split nodup hj
  have hjobs' : (Floor.noteHandled j outcome f).jobs =
      before ++ { j with outcome := some outcome } :: after := hset _ rfl
  refine ⟨hrest, fun k hk => ?_, fun h hh => ?_, ?_, ?_, ?_, hnow⟩
  · rcases mem_setJob hk with rfl | ⟨hk, -⟩
    · have hrecord := record j hj
      exact hrecord
    · exact record k hk
  · rcases List.mem_append.mp hh with hh | hh
    · exact handled h hh
    · obtain rfl := List.mem_singleton.mp hh
      exact ⟨(record j hj).1, right⟩
  · rw [hjobs']
    rw [hjobs] at once
    show ((f.handled ++ [_]).map Handled.job ++ _).Perm (List.range f.taken)
    refine .trans ?_ once
    simp only [List.filter_append, List.filter_cons, open_, Option.isNone_none, Option.isNone_some,
      if_true, Bool.false_eq_true, if_false, List.map_append, List.map_cons, List.map_nil,
      List.append_assoc, List.singleton_append]
    exact List.perm_middle.symm.append_left _
  · show _ = ((f.handled ++ [_]).filter _).map _
    rw [List.filter_append, List.map_append, ← acked]
    cases outcome with
    | ok results => rfl
    | error fault => exact (List.append_nil _).symm
  · rw [hjobs']
    rw [hjobs] at failed
    show f.failed + _ = (f.handled ++ [_]).countP _
    simp only [List.countP_append, List.countP_cons, open_, Option.any_none, Option.any_some,
      List.countP_nil, Bool.false_eq_true, if_false] at failed ⊢
    omega

/-- A record that has been dealt with is not under way any more. -/
theorem Accounts.release (hf : f.Accounts s a queue now remaining) (nodup : (f.jobs.map Job.id).Nodup)
    (hj : j ∈ f.jobs) (closed : j.outcome ≠ none) :
    (release j f).Accounts s a queue now remaining := by
  obtain ⟨hrest, record, handled, once, acked, failed, hnow⟩ := hf
  obtain ⟨before, after, hjobs, -, hgone⟩ := exists_split nodup hj
  obtain ⟨outcome, houtcome⟩ := Option.ne_none_iff_exists'.mp closed
  have hworld : (Floor.release j f).scene.world = f.scene.world := by
    unfold Floor.release
    simp only
    split <;> rfl
  refine ⟨by rwa [taken_release], fun k hk => ?_, by rwa [handled_release], ?_,
    by rwa [acked_release, handled_release], ?_, by rw [hworld, hnow]⟩
  · rw [jobs_release] at hk
    exact record k (List.mem_of_mem_filter hk)
  · rw [jobs_release, handled_release, taken_release, hgone]
    rw [hjobs] at once
    simpa [List.filter_append, List.filter_cons, houtcome] using once
  · rw [jobs_release, handled_release, failed_release, hgone, ← failed, hjobs, houtcome]
    rw [List.countP_append, List.countP_append, List.countP_cons, houtcome]
    cases outcome with
    | ok results => rfl
    | error fault =>
      simp only [Option.any_some, Except.isOk, Except.toBool, Bool.not_false, if_true]
      omega

/-- The loop has its turn. -/
theorem Accounts.take {rest : List Turn} (sound : f.Sound) (h : f.scene.turns = .take :: rest)
    (hf : f.Accounts s a queue now f.intake.remaining) :
    ((f.popped rest).take s a).Accounts s a queue now
      ((f.popped rest).take s a).intake.remaining := by
  have htaking := sound.taking (s := s) (a := a) h
  have hwaiting : f.intake.waiting = none :=
    (waiting_takeAdmitted (f.popped rest)).symm.trans htaking.waiting
  have hpopped : (f.popped rest).Accounts s a queue now f.intake.remaining :=
    hf.congr rfl rfl rfl rfl rfl rfl
  unfold Intake.remaining at hpopped
  rw [hwaiting] at hpopped
  have hfirst : ((f.popped rest).takeAdmitted s a).Accounts s a queue now
      ((f.popped rest).takeAdmitted s a).intake.queue := by
    unfold takeAdmitted
    split
    · rename_i r hadmitted
      rw [show f.intake.admitted = some r from hadmitted] at hpopped
      refine Accounts.takeOn (f := { f.popped rest with
        intake := { f.intake with admitted := none } }) ?_
      exact hpopped.congr rfl rfl rfl rfl rfl rfl
    · rename_i hadmitted
      rw [show f.intake.admitted = none from hadmitted] at hpopped
      exact hpopped
  exact hfirst.takes ⟨htaking.waiting, htaking.admitted⟩ (takes_takeFrom _ _)

/-- A record that waits for a place gets it before those that are still in the queue. -/
theorem remaining_release {rest : List Turn} (sound : f.Sound) (j : Job τ) :
    (release j (f.popped rest)).intake.remaining = f.intake.remaining := by
  cases hwaiting : f.intake.waiting with
  | some r =>
    obtain ⟨-, hintake⟩ := release_of_waiting j (f.popped rest) hwaiting
    have hadmitted := sound.admitted_of_waiting (hwaiting ▸ Option.some_ne_none r)
    rw [hintake]
    unfold Intake.remaining
    rw [hwaiting, hadmitted]
    rfl
  | none =>
    rw [(release_of_none j (f.popped rest) hwaiting).2]
    rfl

/-- Every turn keeps the accounts. -/
theorem Accounts.turn (sound : f.Sound) (hf : f.Accounts s a queue now f.intake.remaining) :
    (f.turn ad s a).Accounts s a queue now (f.turn ad s a).intake.remaining := by
  cases h : f.scene.turns with
  | nil =>
    rw [turn_eq_self h]
    exact hf
  | cons t rest =>
    have hpopped : (f.popped rest).Accounts s a queue now f.intake.remaining :=
      hf.congr rfl rfl rfl rfl rfl rfl
    have turned : Turned ad s a f rest t (f.turn ad s a) := turn_cases h
    generalize f.turn ad s a = f' at turned ⊢
    cases turned with
    | takes => exact hf.take sound h
    | polls | late | astray => exact hf.congr rfl rfl rfl rfl rfl rfl
    | @enters j scene hj some_ world changes =>
      exact hf.congr rfl rfl rfl rfl rfl (congrArg World.now world)
    | @drops j hj none_ =>
      obtain ⟨hout, hnow⟩ := carryOut_drop ad s j.record f.scene.world
      have hdropped : Accounts s a queue now f.intake.remaining
          { f with scene := { f.scene with
            turns := rest
            world := (f.scene.world.carryOut ad (drop s j.record)).2 } } :=
        hf.congr rfl rfl rfl rfl rfl hnow
      refine hdropped.noteHandled sound.nodup hj ?_ ?_
      · exact (sound.phase_popped h hj).open_of_enter
      · rw [hout, hf.now]
        unfold handles
        rw [← (hf.record j hj).2, none_]
        rfl
    | @lane j i cue l hj hl =>
      have hnow := l.now_act ad ⟨j.id, i⟩ cue (f.popped rest).scene
      exact hf.congr (account_setJob sound.nodup hj _ (j.account_set i _)) rfl rfl rfl rfl hnow
    | @tallies j hj =>
      have hset := account_setJob sound.nodup hj { j with counted := j.counted + 1 } rfl
      unfold tally
      simp only
      split
      · exact hf.congr hset rfl rfl rfl rfl rfl
      · exact hf.congr hset rfl rfl rfl rfl rfl
    | @settles j hj =>
      obtain ⟨hopen, hsome, -⟩ := (sound.phase_popped h hj).open_of_settle
      refine hpopped.noteHandled sound.nodup hj hopen ?_
      unfold handles
      rw [← (hf.record j hj).2, List.isEmpty_eq_false_iff.mpr hsome]
      rfl
    | @releases j hj =>
      rw [remaining_release sound]
      exact hpopped.release sound.nodup hj (sound.phase_popped h hj).closed_of_release

/-- The accounts are right at every moment. -/
theorem Reached.accounts {g : Floor τ σ} (h : Reached ad s a f g) (sound : f.Sound)
    (hf : f.Accounts s a queue now f.intake.remaining) :
    g.Accounts s a queue now g.intake.remaining := by
  refine (h.induct (motive := fun g => g.Sound ∧ g.Accounts s a queue now g.intake.remaining)
    ⟨sound, hf⟩ (fun g hg => ⟨hg.1.wake, ?_⟩) fun g hg => ⟨hg.1.turn, hg.2.turn hg.1⟩).2
  obtain ⟨timer, hworld⟩ := g.scene.wake_spec.2.2.2
  have hnow : g.scene.wake.world.now = g.scene.world.now := by rw [hworld]
  exact hg.2.congr rfl rfl rfl rfl rfl hnow

/-! ## A worker that is idle -/

/-- When nothing is left to do, all records that were taken from the queue have been dealt with. -/
structure Settled (s : Settings) (a : Arena) (queue : List InboundRecord) (now : Moment)
    (f : Floor τ σ) : Prop where
  jobs : f.jobs = []
  left : f.intake.queue = queue.drop f.taken
  /-- Each was dealt with once, under its place in the queue. -/
  once : (f.handled.map Handled.job).Perm (List.range f.taken)
  record : ∀ h ∈ f.handled, queue[h.job]? = some h.record
  acked : f.acked = (f.handled.filter (·.outcome.isOk)).map (·.record.dataId)
  /-- Those that were dealt with without a fault can be told by themselves. -/
  ackedIds : f.acked.Perm (((queue.take f.taken).filter (handles s a now)).map (·.dataId))
  returned : f.returned = f.acked.length

/-- Records that were dealt with once each, under their places in the queue, are the first ones of
the queue. -/
theorem perm_take_of_once {handled : List Handled} {n : Nat}
    (once : (handled.map Handled.job).Perm (List.range n))
    (record : ∀ h ∈ handled, queue[h.job]? = some h.record) :
    (handled.map Handled.record).Perm (queue.take n) := by
  have hplaces := once.map (queue[·]?)
  rw [List.map_map] at hplaces
  have hsome : handled.map ((queue[·]?) ∘ Handled.job) = (handled.map Handled.record).map some := by
    rw [List.map_map]
    exact List.map_congr_left record
  have hle : n ≤ queue.length := by
    by_contra h
    obtain ⟨m, hm, hjob⟩ := List.mem_map.mp
      (once.mem_iff.mpr (List.mem_range.mpr (Nat.not_le.mp h)))
    have hget := record m hm
    rw [hjob, List.getElem?_eq_none (Nat.le_refl _)] at hget
    cases hget
  have hrange : (List.range n).map (queue[·]?) = (queue.take n).map some := by
    refine List.ext_getElem? fun i => ?_
    rcases Nat.lt_or_ge i n with hi | hi
    · simp [hi, Nat.lt_of_lt_of_le hi hle]
    · simp [Nat.not_lt.mpr hi]
  rw [hsome, hrange] at hplaces
  exact (List.map_perm_map_iff (Option.some_injective _)).mp hplaces

theorem Accounts.settled (sound : f.Sound) (hf : f.Accounts s a queue now f.intake.remaining)
    (idle : f.isIdle = true) : f.Settled s a queue now := by
  obtain ⟨hrest, record, handled, once, acked, failed, hnow⟩ := hf
  obtain ⟨hclosed, hjobs⟩ : f.intake.isOpen = false ∧ f.jobs = [] := by
    unfold isIdle at idle
    rw [Bool.and_eq_true, List.isEmpty_iff, Bool.not_eq_true'] at idle
    exact idle
  have hloop := sound.loop
  have hadmitted := sound.admitted
  rw [hclosed] at hloop
  simp only [Bool.false_eq_true, if_false] at hloop
  have hremaining : f.intake.remaining = f.intake.queue := by
    unfold Intake.remaining
    rw [List.eq_nil_of_length_eq_zero (l := f.intake.waiting.toList) (by omega),
      List.eq_nil_of_length_eq_zero (l := f.intake.admitted.toList) (by omega)]
    rfl
  rw [hjobs] at once failed
  have honce : (f.handled.map Handled.job).Perm (List.range f.taken) := by
    simpa using once
  have hrecords : (f.handled.map Handled.record).Perm (queue.take f.taken) :=
    perm_take_of_once honce fun h hh => (handled h hh).1
  refine ⟨hjobs, by rw [hrest, hremaining], honce, fun h hh => (handled h hh).1, acked, ?_, ?_⟩
  · have hfilter : f.handled.filter (·.outcome.isOk) =
        f.handled.filter (handles s a now ∘ Handled.record) :=
      List.filter_congr fun h hh => (handled h hh).2
    rw [acked, hfilter]
    have := (hrecords.filter (handles s a now)).map (·.dataId)
    rwa [List.filter_map, List.map_map] at this
  · have hlength : f.handled.length = f.taken := by
      simpa using honce.length_eq
    have hfaults : f.failed = f.handled.countP (!·.outcome.isOk) := by
      simpa using failed
    have hsum := List.length_eq_countP_add_countP (l := f.handled) (·.outcome.isOk)
    rw [acked, List.length_map, ← List.countP_eq_length_filter]
    unfold returned
    rw [hfaults, ← hlength, hsum]
    simp

end Floor

/-! ## Starting -/

/-- A worker that starts: all it has to do is to take records. -/
def opening (lifespan : Option Binary64) (queue : List InboundRecord) (w : World σ) : Floor τ σ where
  scene := { world := { w with timer := .zero }, turns := [.take] }
  intake := { queue, lifespan, isOpen := true }

variable (lifespan : Option Binary64) (queue : List InboundRecord) (w : World σ)

theorem pending_opening : (opening lifespan queue w : Floor τ σ).scene.pending = {.take} := rfl

theorem sound_opening : (opening lifespan queue w : Floor τ σ).Sound := by
  have hnone : ∀ j ∈ (opening lifespan queue w : Floor τ σ).jobs, False := fun _ => List.not_mem_nil
  refine ⟨⟨?_, List.nodup_nil, fun j hj => (hnone j hj).elim, fun t ht i hi => ?_,
    fun j hj => (hnone j hj).elim, fun j hj => (hnone j hj).elim⟩, ?_, Nat.zero_le _⟩
  · exact fun x hx => absurd hx (Multiset.notMem_zero x)
  · rw [pending_opening] at ht
    obtain rfl := Multiset.mem_singleton.mp ht
    cases hi
  · rw [pending_opening]
    rfl

theorem accounts_opening (s : Settings) (a : Arena) :
    (opening lifespan queue w : Floor τ σ).Accounts s a queue w.now
      (opening lifespan queue w : Floor τ σ).intake.remaining :=
  ⟨rfl, fun _ hj => absurd hj List.not_mem_nil, fun _ hh => absurd hh List.not_mem_nil, .refl _, rfl,
    rfl, rfl⟩

variable (ad : Adapter τ σ) (s : Settings) (a : Arena)

theorem start_eq_opening (places : 1 ≤ s.maxConcurrency) :
    start ad s a lifespan queue w = .ok ((opening lifespan queue w).run ad s a) := by
  unfold start
  rw [if_neg (by omega)]
  rfl

/-- A worker that has places for records keeps its accounts. At every moment no more records are under
way than it has places for, and each that has been taken from the queue has been dealt with once or is
under way. When the worker returns, all of these have been dealt with, the queue has the others in
order, and just those that were dealt with without a fault have been acknowledged, each once; the
worker returns how many these are. -/
theorem start_keeps_accounts (places : 1 ≤ s.maxConcurrency) :
    (∀ f, Floor.Reached ad s a (opening lifespan queue w) f →
      (f.jobs.length : Int) ≤ s.maxConcurrency ∧
      (f.handled.map Handled.job ++ (f.jobs.filter (·.outcome.isNone)).map Job.id).Perm
        (List.range f.taken)) ∧
    ∀ f, start ad s a lifespan queue w = .ok (some f) →
      Floor.Reached ad s a (opening lifespan queue w) f ∧ f.Settled s a queue w.now := by
  have hsound : (opening lifespan queue w : Floor τ σ).Sound := sound_opening lifespan queue w
  have haccounts := accounts_opening (τ := τ) lifespan queue w s a
  have hplaced : (opening lifespan queue w : Floor τ σ).Placed s := by
    refine ⟨?_, fun h => absurd rfl h⟩
    show ((0 : Nat) : Int) ≤ _
    omega
  refine ⟨fun f h => ⟨?_, (h.accounts hsound haccounts).once⟩, fun f h => ?_⟩
  · have hle := (h.placed places hsound hplaced).le
    omega
  · rw [start_eq_opening lifespan queue w ad s a places, Except.ok.injEq] at h
    obtain ⟨hreached, hidle⟩ := Floor.reached_of_run h
    exact ⟨hreached, (hreached.accounts hsound haccounts).settled (hreached.sound hsound) hidle⟩

/-- One pipeline, `Run.patient`. -/
def single : Arena :=
  .ofWorkflows [{ header := { id := "single", name := "single" }, pipelines := [Run.patient] }]

/-- A record of a source without pipelines. -/
def stray : InboundRecord := { Run.reading with dataId := "stray", sourceId := 2 }

/-- One record at a time; dropped records are kept for longer than there are dates. -/
def narrow : Settings where
  droppedRetention := some (.ofRatio false (10 ^ 13) 1)
  maxConcurrency := 1

/-- Destinations that answer all calls. -/
def calm : World Recording where
  now := ⟨0, none⟩
  destinations := {}

theorem reading_and_stray_settled :
    ∃ f, start Recording.adapter narrow single (some (.ofRatio false 1 100)) [Run.reading, stray] calm =
        .ok (some f) ∧
      f.Settled narrow single [Run.reading, stray] calm.now ∧
      f.acked = ["reading"] ∧ f.taken = 2 ∧ f.returned = 1 := by
  have places : 1 ≤ narrow.maxConcurrency := Int.le_refl 1
  have hall : ((opening (some (.ofRatio false 1 100)) [Run.reading, stray] calm).rounds
      Recording.adapter narrow single 20).map (fun f => (f.acked, f.taken, f.returned)) =
        some (["reading"], 2, 1) := by decide +kernel
  obtain ⟨f, hrounds, hf⟩ := Option.map_eq_some_iff.mp hall
  obtain ⟨hacked, htaken, hreturned⟩ : f.acked = ["reading"] ∧ f.taken = 2 ∧ f.returned = 1 := by
    simpa only [Prod.mk.injEq] using hf
  have hstart : start Recording.adapter narrow single (some (.ofRatio false 1 100))
      [Run.reading, stray] calm = .ok (some f) := by
    rw [start_eq_opening _ _ _ _ _ _ places, Floor.run_of_rounds hrounds]
  obtain ⟨-, hsettled⟩ := (start_keeps_accounts (some (.ofRatio false 1 100)) [Run.reading, stray] calm
    Recording.adapter narrow single places).2 f hstart
  exact ⟨f, hstart, hsettled, hacked, htaken, hreturned⟩

end Conveyor.Worker
