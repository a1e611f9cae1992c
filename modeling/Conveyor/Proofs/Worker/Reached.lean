import Conveyor.Proofs.Worker.Sound

/-!
# What a worker comes to

The floors that a worker comes to, turn by turn, and the one that it returns. At every moment no more
records are under way than there are places, and something is pending for as long as something is left
to do.
-/

namespace Conveyor.Worker

variable {τ σ : Type} {ad : Adapter τ σ} {s : Settings} {a : Arena}

/-- Something is pending for every record under way. -/
theorem Job.Phase.exists_mem {P : Multiset Turn} {j : Job τ} (h : j.Phase P) : ∃ t, t ∈ P := by
  cases h with
  | entering calls => exact ⟨_, Multiset.one_le_count_iff_mem.mp (Nat.le_of_eq calls.enter.symm)⟩
  | settling calls => exact ⟨_, Multiset.one_le_count_iff_mem.mp (Nat.le_of_eq calls.settle.symm)⟩
  | leaving calls => exact ⟨_, Multiset.one_le_count_iff_mem.mp (Nat.le_of_eq calls.release.symm)⟩
  | running tallies calls counted lt alive =>
    cases tallies with
    | succ n =>
      refine ⟨.tally j.id, Multiset.one_le_count_iff_mem.mp ?_⟩
      rw [calls.tally]
      exact Nat.succ_pos n
    | zero =>
      -- not all of its runs have ended, and those that have not are alive
      obtain ⟨l, hl, hopen⟩ : ∃ l ∈ j.lanes, l.isEnded = false := by
        by_contra hall
        have hended : j.ended = j.lanes.length := List.countP_eq_length.mpr fun l hl => by
          by_contra hopen
          exact hall ⟨l, hl, Bool.eq_false_iff.mpr hopen⟩
        omega
      obtain ⟨i, hi⟩ := List.mem_iff_getElem?.mp hl
      obtain ⟨cue, hcue⟩ := (alive i l hi).exists_mem hopen
      exact ⟨_, hcue⟩

namespace Floor

variable {f f' g : Floor τ σ} {t : Turn} {rest : List Turn} {j : Job τ}

/-! ## Places -/

/-- Records under way, and the one that is about to be taken on, have places; a record waits for a
place only while others are under way. -/
structure Placed (s : Settings) (f : Floor τ σ) : Prop where
  le : ((f.jobs.length + f.intake.admitted.toList.length : Nat) : Int) ≤ s.maxConcurrency
  busy : f.intake.waiting ≠ none → f.jobs ≠ []

theorem Placed.congr (hf : f.Placed s) (length : f'.jobs.length = f.jobs.length)
    (intake : f'.intake = f.intake) : f'.Placed s where
  le := by
    rw [length, intake]
    exact hf.le
  busy h := by
    rw [intake] at h
    exact List.length_pos_iff.mp (length ▸ List.length_pos_iff.mpr (hf.busy h))

theorem Placed.takes {queue : List InboundRecord} (places : 1 ≤ s.maxConcurrency)
    (hf : f.Placed s) (taking : f.intake.waiting = none ∧ f.intake.admitted = none)
    (h : Takes s a queue f f') : f'.Placed s := by
  induction h with
  | closes done => exact ⟨hf.le, hf.busy⟩
  | polls on => exact ⟨hf.le, hf.busy⟩
  | waits full =>
    refine ⟨hf.le, fun _ hnone => ?_⟩
    unfold hasPlace at full
    rw [hnone, decide_eq_false_iff_not] at full
    exact full places
  | @takes r queue f f' place more ih =>
    refine ih ⟨?_, fun h => absurd taking.1 h⟩ taking
    have hplace := of_decide_eq_true place
    have hadmitted : (f.takeOn s a r).intake.admitted = none := taking.2
    show (((_ ++ [_] : List (Job τ)).length + _ : Nat) : Int) ≤ _
    rw [List.length_append, hadmitted]
    simp only [List.length_singleton, Option.toList_none, List.length_nil]
    omega

/-- The record that has got its place keeps it as it is taken on. -/
theorem Placed.takeAdmitted (hf : f.Placed s) (free : f.intake.waiting = none) :
    (f.takeAdmitted s a).Placed s := by
  unfold Floor.takeAdmitted
  split
  · rename_i r hadmitted
    refine ⟨?_, fun h => absurd free h⟩
    have hle := hf.le
    rw [hadmitted] at hle
    show (((_ ++ [_] : List (Job τ)).length + 0 : Nat) : Int) ≤ _
    rw [List.length_append]
    exact hle
  · exact hf

/-- The place of a record that leaves is given to the one that waits. -/
theorem Placed.release (hf : f.Placed s) (hj : j ∈ f.jobs) : (release j f).Placed s := by
  have hfewer : (Floor.release j f).jobs.length + 1 ≤ f.jobs.length := by
    rw [jobs_release]
    refine Nat.succ_le_of_lt (List.length_filter_lt_length_iff_exists.mpr ⟨j, hj, ?_⟩)
    simp
  have hle := hf.le
  cases hwaiting : f.intake.waiting with
  | some r =>
    obtain ⟨-, hintake⟩ := release_of_waiting j f hwaiting
    refine ⟨?_, ?_⟩
    · rw [hintake]
      simp only [Option.toList_some, List.length_singleton]
      omega
    · rw [hintake]
      exact fun h => absurd rfl h
  | none =>
    obtain ⟨-, hintake⟩ := release_of_none j f hwaiting
    refine ⟨?_, ?_⟩
    · rw [hintake]
      omega
    · rw [hintake]
      exact fun h => absurd hwaiting h

theorem Placed.turn (places : 1 ≤ s.maxConcurrency) (sound : f.Sound) (hf : f.Placed s) :
    (f.turn ad s a).Placed s := by
  cases h : f.scene.turns with
  | nil =>
    rw [turn_eq_self h]
    exact hf
  | cons t rest =>
    have hset : ∀ (j' : Job τ) (g : Floor τ σ), (g.setJob j').jobs.length = g.jobs.length :=
      fun j' g => List.length_map _
    have hpopped : (f.popped rest).Placed s := ⟨hf.le, hf.busy⟩
    have turned : Turned ad s a f rest t (f.turn ad s a) := turn_cases h
    generalize f.turn ad s a = f' at turned ⊢
    cases turned with
    | takes =>
      have htaking := sound.taking (s := s) (a := a) h
      have hfree : f.intake.waiting = none :=
        (waiting_takeAdmitted (f.popped rest)).symm.trans htaking.waiting
      exact (hpopped.takeAdmitted hfree).takes places ⟨htaking.waiting, htaking.admitted⟩
        (takes_takeFrom _ _)
    | polls | late | enters | astray => exact hf.congr rfl rfl
    | drops | settles => exact hf.congr (hset _ f) rfl
    | lane => exact hf.congr (hset _ f) rfl
    | @tallies j hj =>
      unfold tally
      simp only
      split
      · exact hf.congr (hset _ f) rfl
      · exact hf.congr (hset _ f) rfl
    | releases hj => exact hpopped.release hj

/-- What a worker that is not idle has left to do is pending. -/
theorem Sound.exists_pending (hf : f.Sound) (placed : f.Placed s) (busy : f.isIdle = false) :
    ∃ t, t ∈ f.scene.pending := by
  cases hjobs : f.jobs with
  | cons j jobs => exact (hf.phase j (hjobs ▸ List.mem_cons_self)).exists_mem
  | nil =>
    have hopen : f.intake.isOpen = true := by
      unfold isIdle at busy
      rw [hjobs] at busy
      simpa using busy
    have hwaiting : f.intake.waiting = none := by
      by_contra h
      exact placed.busy h hjobs
    have hloop := hf.loop
    rw [hopen, hwaiting] at hloop
    simp only [Option.toList_none, List.length_nil, if_true] at hloop
    rcases Nat.eq_zero_or_pos (f.scene.pending.count .take) with htake | htake
    · exact ⟨.poll, Multiset.one_le_count_iff_mem.mp (by omega)⟩
    · exact ⟨.take, Multiset.one_le_count_iff_mem.mp htake⟩

/-! ## Turn by turn -/

/-- What a floor comes to when turns are carried out and alarms go off. -/
inductive Reached (ad : Adapter τ σ) (s : Settings) (a : Arena) (f : Floor τ σ) : Floor τ σ → Prop where
  | refl : Reached ad s a f f
  | wake {g : Floor τ σ} (h : Reached ad s a f g) : Reached ad s a f g.wake
  | turn {g : Floor τ σ} (h : Reached ad s a f g) : Reached ad s a f (g.turn ad s a)

theorem Reached.turns (h : Reached ad s a f g) (n : Nat) : Reached ad s a f (g.turns ad s a n) := by
  induction n generalizing g with
  | zero => exact h
  | succ n ih => exact ih h.turn

theorem Reached.trans (h : Reached ad s a f g) (h' : Reached ad s a g f') : Reached ad s a f f' := by
  induction h' with
  | refl => exact h
  | wake _ ih => exact ih.wake
  | turn _ ih => exact ih.turn

/-- A worker returns an idle floor that it has come to. -/
theorem reached_of_run (h : f.run ad s a = some g) : Reached ad s a f g ∧ g.isIdle = true := by
  refine run.partial_correctness ad s a (fun f g => Reached ad s a f g ∧ g.isIdle = true) ?_ f g h
  intro run ih f g hrun
  split at hrun
  · rename_i hidle
    obtain rfl := Option.some.inj hrun
    exact ⟨.refl, hidle⟩
  · obtain ⟨hreached, hidle⟩ := ih _ _ hrun
    exact ⟨(Reached.refl.wake.turns _).trans hreached, hidle⟩

/-- Go on for so many rounds at most. -/
def rounds (ad : Adapter τ σ) (s : Settings) (a : Arena) : Nat → Floor τ σ → Option (Floor τ σ)
  | 0, f => if f.isIdle then some f else none
  | n + 1, f => if f.isIdle then some f else rounds ad s a n (f.round ad s a)

/-- A worker that is idle after some rounds returns. -/
theorem run_of_rounds {n : Nat} (h : f.rounds ad s a n = some g) : f.run ad s a = some g := by
  induction n generalizing f with
  | zero =>
    unfold rounds at h
    split at h
    · rename_i hidle
      rw [run, if_pos hidle]
      exact h
    · cases h
  | succ n ih =>
    unfold rounds at h
    rw [run]
    split at h
    · rename_i hidle
      rw [if_pos hidle]
      exact h
    · rename_i hbusy
      rw [if_neg hbusy]
      exact ih h

/-- What holds of a floor, and is kept by turns and by the passing of time, holds of all that it
comes to. -/
theorem Reached.induct {motive : Floor τ σ → Prop} (h : Reached ad s a f g) (here : motive f)
    (wake : ∀ g, motive g → motive g.wake) (turn : ∀ g, motive g → motive (g.turn ad s a)) :
    motive g := by
  induction h with
  | refl => exact here
  | wake _ ih => exact wake _ ih
  | turn _ ih => exact turn _ ih

theorem Reached.sound (h : Reached ad s a f g) (hf : f.Sound) : g.Sound :=
  h.induct hf (fun _ => Sound.wake) fun _ => Sound.turn

theorem Reached.placed (h : Reached ad s a f g) (places : 1 ≤ s.maxConcurrency) (sound : f.Sound)
    (hf : f.Placed s) : g.Placed s := by
  refine (h.induct (motive := fun g => g.Sound ∧ g.Placed s) ⟨sound, hf⟩ ?_ ?_).2
  · exact fun g hg => ⟨hg.1.wake, hg.2.congr rfl rfl⟩
  · exact fun g hg => ⟨hg.1.turn, hg.2.turn places hg.1⟩

end Floor
end Conveyor.Worker
