import Conveyor.Proofs.Run.Bound
import Conveyor.Proofs.Worker.Scene
import Conveyor.Worker.Lane

/-!
# The turns of a lane

What a lane can do in a turn: how it moves on, which turns it calls for or sets alarms for, and
which alarms it calls off. From this follows that a lane that has not ended always has something
pending that gets it further, that it comes to an end after so many turns, and that its end is
counted once.
-/

namespace Conveyor.Worker

open Activity

variable {τ σ : Type}

namespace Work

def isEnded : Work τ → Bool
  | .ended _ => true
  | _ => false

def isResting : Work τ → Bool
  | .resting .. => true
  | _ => false

end Work

/-! ## Moves -/

/-- How a step under way moves on in a turn: the turns that it takes away and those it adds. -/
inductive Stint.Moves (id : LaneId) :
    Cue → Stint τ → Stint τ → Multiset Turn → Multiset Turn → Prop where
  /-- The work ends, and what it rested for is called off. -/
  | ends {st : Stint τ} {gone : Multiset Turn} (answer : Option Answer)
      (rest : ∀ t ∈ gone, t = .lane id .rested) :
      Moves id .work st { st with work := .ended answer } gone {.lane id (.report st.limit)}
  /-- The call is made, and its answer is there after another turn. -/
  | calls {st : Stint τ} {call : Option (DestinationRef × Request)} (pending : τ)
      (fresh : st.work = .fresh call) :
      Moves id .work st { st with work := .due pending } 0 {.lane id .work}
  /-- The call is made, and its answer takes time. -/
  | rests {st : Stint τ} {call : Option (DestinationRef × Request)} (number : Nat) (pending : τ)
      (fresh : st.work = .fresh call) :
      Moves id .work st { st with work := .resting number pending } 0 {.lane id .rested}
  /-- There is nothing to do for the work now. -/
  | worksNot {st : Stint τ} (on : st.isGivenUp = false)
      (idle : st.work.isResting = true ∨ st.work.isEnded = true) : Moves id .work st st 0 0
  /-- The answer is there. -/
  | wakes {st : Stint τ} {number : Nat} {pending : τ} (resting : st.work = .resting number pending) :
      Moves id .rested st { st with work := .due pending } 0 {.lane id .work}
  | wakesNot {st : Stint τ} (idle : st.work.isResting = false) : Moves id .rested st st 0 0
  /-- The run gets a turn to look at the work. -/
  | notices {st : Stint τ} {cue : Cue} (alert : cue = .limit ∨ cue = .report st.limit) :
      Moves id cue st { st with isNoticed := true } 0 {.lane id .goOn}
  | noticesNot {st : Stint τ} {cue : Cue}
      (calm : st.isNoticed = true ∨ ∃ limit, cue = .report limit ∧ limit ≠ st.limit)
      (alert : cue = .limit ∨ ∃ limit, cue = .report limit) : Moves id cue st st 0 0
  /-- Work that has not ended is given up; what rests gets a turn to end in. -/
  | givesUp {st : Stint τ} (unfinished : st.work.isEnded = false) (on : st.isGivenUp = false) :
      Moves id .goOn st { st with isGivenUp := true, isNoticed := false } 0
        (if st.work.isResting then {.lane id .work} else 0)
  | waits {st : Stint τ} (unfinished : st.work.isEnded = false) (off : st.isGivenUp = true) :
      Moves id .goOn st { st with isNoticed := false } 0 0

namespace Lane

/-- Where a run gets to when it goes on, and the turns that are to come. -/
inductive Goes (id : LaneId) (t : Activity LaneResult) : Lane τ → Multiset Turn → Prop where
  | ends (r : LaneResult) : Goes id t (.ended r) {.tally id.job}
  | pauses {next : Activity LaneResult} {cue : Cue} (before : Before next t)
      (alert : cue = .goOn ∨ cue = .rested) : Goes id t (.going next) {.lane id cue}
  | begins {next : Option Answer → Activity LaneResult} (before : ∀ answer, Before (next answer) t)
      (call : Option (DestinationRef × Request)) (number : Nat) :
      Goes id t (.stepping { work := .fresh call, limit := some number } next)
        ({.lane id .limit} + {.lane id .work})
  | hurries {next : Option Answer → Activity LaneResult} (before : ∀ answer, Before (next answer) t)
      (call : Option (DestinationRef × Request)) :
      Goes id t (.stepping { work := .fresh call, limit := none, isGivenUp := true } next)
        {.lane id .work}

/-- How a lane moves on in a turn. -/
inductive Moves (id : LaneId) : Cue → Lane τ → Lane τ → Multiset Turn → Multiset Turn → Prop where
  | goes {t : Activity LaneResult} {l : Lane τ} {new : Multiset Turn} (on : Goes id t l new) :
      Moves id .goOn (.going t) l 0 new
  | wakes (t : Activity LaneResult) : Moves id .rested (.going t) (.going t) 0 {.lane id .goOn}
  | ignores {cue : Cue} (t : Activity LaneResult) (idle : cue ≠ .goOn ∧ cue ≠ .rested) :
      Moves id cue (.going t) (.going t) 0 0
  | steps {cue : Cue} {st st' : Stint τ} {gone new : Multiset Turn} (h : st.Moves id cue st' gone new)
      (next : Option Answer → Activity LaneResult) :
      Moves id cue (.stepping st next) (.stepping st' next) gone new
  /-- The run goes on with the answer of its step. -/
  | looks {st : Stint τ} {answer : Option Answer} {next : Option Answer → Activity LaneResult}
      {l : Lane τ} {gone new : Multiset Turn} (ended : st.work = .ended answer)
      (limits : ∀ t ∈ gone, t = .lane id .limit) (on : Goes id (next answer) l new) :
      Moves id .goOn (.stepping st next) l gone new
  | done (cue : Cue) (r : LaneResult) : Moves id cue (.ended r) (.ended r) 0 0

end Lane

/-! ## The numbers of a lane -/

/-- The numbers that a step keeps are those of its own alarms. -/
structure Stint.Owns (id : LaneId) (s : Scene σ) (st : Stint τ) : Prop where
  limit : ∀ number, st.limit = some number → s.Reserved number (.lane id .limit)
  rested : ∀ number pending, st.work = .resting number pending →
    s.Reserved number (.lane id .rested)

def Lane.Owns (id : LaneId) (s : Scene σ) : Lane τ → Prop
  | .stepping st _ => st.Owns id s
  | _ => True

variable {id : LaneId} {s s' : Scene σ} {st : Stint τ} {l : Lane τ} {gone new : Multiset Turn}

theorem Stint.Owns.changes (h : st.Owns id s) (hs : s.Changes s' gone new) : st.Owns id s' where
  limit number hn := hs.reserved (h.limit number hn)
  rested number pending hn := hs.reserved (h.rested number pending hn)

theorem Lane.Owns.changes (h : l.Owns id s) (hs : s.Changes s' gone new) : l.Owns id s' := by
  cases l with
  | stepping st next => exact Stint.Owns.changes h hs
  | going | ended => exact trivial

/-! ## What a turn does -/

/-- A step has moved on in a turn. -/
def Stint.Moved (id : LaneId) (cue : Cue) (s : Scene σ) (st : Stint τ) (r : Stint τ × Scene σ) : Prop :=
  ∃ gone new, st.Moves id cue r.1 gone new ∧ s.Changes r.2 gone new ∧ r.1.Owns id r.2

namespace Lane

variable {a : Adapter τ σ}

theorem moved_endWork (answer : Option Answer) (hs : s.Changes s' gone 0) (owns : st.Owns id s)
    (rest : ∀ t ∈ gone, t = .lane id .rested) :
    st.Moved id .work s (endWork id answer st s') := by
  have hchanges := hs.trans (Scene.changes_callFor s' (.lane id (.report st.limit)))
  rw [add_zero, zero_add] at hchanges
  refine ⟨gone, _, .ends answer rest, hchanges, ?_, fun number pending h => ?_⟩
  · exact fun number h => hchanges.reserved (owns.limit number h)
  · cases h

theorem moved_fetchAnswer (pending : τ) (w : World σ) (owns : st.Owns id s) :
    st.Moved id .work s (fetchAnswer a id pending st { s with world := w }) :=
  moved_endWork _ (.world s _) owns fun _ h => absurd h (Multiset.notMem_zero _)

theorem moved_beginWork {call : Option (DestinationRef × Request)} (numbered : s.Numbered)
    (owns : st.Owns id s) (fresh : st.work = .fresh call) :
    st.Moved id .work s (beginWork a id call st s) := by
  cases call with
  | none => exact moved_endWork none (.refl s) owns fun _ h => absurd h (Multiset.notMem_zero _)
  | some call =>
    obtain ⟨ref, request⟩ := call
    unfold beginWork
    simp only
    split
    · exact moved_fetchAnswer _ _ owns
    · rename_i seconds _
      have hworld := Scene.Changes.world s (s.world.call a ref request).2
      split
      · have hchanges := hworld.trans (Scene.changes_callFor _ (.lane id .work))
        rw [add_zero, zero_add] at hchanges
        refine ⟨0, _, .calls _ fresh, hchanges, ?_, fun number pending h => ?_⟩
        · exact fun number h => hchanges.reserved (owns.limit number h)
        · cases h
      · have hchanges := hworld.trans (Scene.changes_setAlarm _ seconds (.lane id .rested))
        rw [add_zero, zero_add] at hchanges
        refine ⟨0, _, .rests _ _ fresh, hchanges, ?_, fun number pending h => ?_⟩
        · exact fun number h => hchanges.reserved (owns.limit number h)
        · cases h
          exact Scene.reserved_setAlarm (hworld.numbered numbered) _ _

theorem moved_doWork (numbered : s.Numbered) (owns : st.Owns id s) :
    st.Moved id .work s (doWork a id st s) := by
  have hnone : ∀ t ∈ (0 : Multiset Turn), t = .lane id .rested :=
    fun _ h => absurd h (Multiset.notMem_zero _)
  unfold doWork
  split
  · rename_i number pending _ hwork
    obtain ⟨gone, hchanges, hgone⟩ := Scene.changes_callOff (owns.rested number pending hwork)
    exact moved_endWork none hchanges owns hgone
  · exact moved_endWork none (.refl s) owns hnone
  · rename_i call _ hwork
    exact moved_beginWork numbered owns hwork
  · exact moved_fetchAnswer _ _ owns
  · rename_i hon hfresh hdue
    refine ⟨0, 0, .worksNot hon ?_, .refl s, owns⟩
    cases hwork : st.work with
    | fresh call => exact absurd hwork (hfresh call)
    | due pending => exact absurd hwork (hdue pending)
    | resting => exact .inl rfl
    | ended => exact .inr rfl

theorem moved_endRest (owns : st.Owns id s) : st.Moved id .rested s (endRest id st s) := by
  unfold endRest
  split
  · rename_i number pending hwork
    have hchanges := Scene.changes_callFor s (.lane id .work)
    refine ⟨0, _, .wakes hwork, hchanges, ?_, fun number pending h => ?_⟩
    · exact fun number h => hchanges.reserved (owns.limit number h)
    · cases h
  · rename_i hwork
    refine ⟨0, 0, .wakesNot ?_, .refl s, owns⟩
    cases h : st.work with
    | resting number pending => exact absurd h (hwork number pending)
    | fresh | due | ended => rfl

theorem moved_notice {cue : Cue} (owns : st.Owns id s)
    (alert : cue = .limit ∨ cue = .report st.limit) : st.Moved id cue s (notice id st s) := by
  unfold notice
  split
  · rename_i hnoticed
    refine ⟨0, 0, .noticesNot (.inl hnoticed) ?_, .refl s, owns⟩
    exact alert.imp_right fun h => ⟨_, h⟩
  · have hchanges := Scene.changes_callFor s (.lane id .goOn)
    exact ⟨0, _, .notices alert, hchanges, fun number h => hchanges.reserved (owns.limit number h),
      fun number pending h => hchanges.reserved (owns.rested number pending h)⟩

theorem moved_stepTurn (a : Adapter τ σ) (cue : Cue) (numbered : s.Numbered) (owns : st.Owns id s)
    (other : cue ≠ .goOn) : st.Moved id cue s (stepTurn a id st cue s) := by
  cases cue with
  | goOn => exact absurd rfl other
  | work => exact moved_doWork numbered owns
  | rested => exact moved_endRest owns
  | limit => exact moved_notice owns (.inl rfl)
  | report limit =>
    unfold stepTurn
    simp only
    split
    · rename_i h
      exact moved_notice owns (.inr (h ▸ rfl))
    · rename_i h
      exact ⟨0, 0, .noticesNot (.inr ⟨limit, rfl, h⟩) (.inr ⟨limit, rfl⟩), .refl s, owns⟩

theorem moved_giveUp (owns : st.Owns id s) (unfinished : st.work.isEnded = false) :
    st.Moved id .goOn s (giveUp id st s) := by
  unfold giveUp
  split
  · rename_i hoff
    exact ⟨0, 0, .waits unfinished hoff, .refl s, owns.limit, owns.rested⟩
  · rename_i hon
    have hmoves : st.Moves id .goOn _ 0 _ := .givesUp unfinished (Bool.eq_false_iff.mpr hon)
    obtain ⟨work, limit, isNoticed, isGivenUp⟩ := st
    cases work with
    | resting number pending =>
      have hchanges := Scene.changes_callFor s (.lane id .work)
      exact ⟨0, _, hmoves, hchanges, fun number h => hchanges.reserved (owns.limit number h),
        fun number pending h => hchanges.reserved (owns.rested number pending h)⟩
    | fresh | due => exact ⟨0, 0, hmoves, .refl s, owns.limit, owns.rested⟩
    | ended => cases unfinished

/-- A run has gone on. -/
def Gone (id : LaneId) (t : Activity LaneResult) (s : Scene σ) (r : Lane τ × Scene σ) : Prop :=
  ∃ new, Goes id t r.1 new ∧ s.Changes r.2 0 new ∧ r.1.Owns id r.2

theorem gone_beginStep {t : Activity LaneResult} {limit : Binary64}
    {call : Option (DestinationRef × Request)} {next : Option Answer → Activity LaneResult}
    (numbered : s.Numbered) (before : ∀ answer, Before (next answer) t) :
    Gone id t s (beginStep id limit call next s : Lane τ × Scene σ) := by
  unfold beginStep
  split
  · exact ⟨_, .hurries before call, Scene.changes_callFor s _,
      ⟨nofun, nofun⟩⟩
  · have hset := Scene.changes_setAlarm s limit (.lane id .limit)
    have hcall := Scene.changes_callFor (s.setAlarm limit (.lane id .limit)).2 (.lane id .work)
    refine ⟨_, .begins before call _, hset.trans hcall, ⟨fun number h => ?_, nofun⟩⟩
    cases h
    exact hcall.reserved (Scene.reserved_setAlarm numbered limit _)

theorem gone_goOn (a : Adapter τ σ) (id : LaneId) (t : Activity LaneResult)
    (numbered : s.Numbered) : Gone id t s (goOn a id t s) := by
  have hfollows := follows_advance (World.reply a) t s.world
  unfold goOn
  generalize t.advance (World.reply a) s.world = r at hfollows
  obtain ⟨halt, world⟩ := r
  have hworld := Scene.Changes.world s world
  have lift : ∀ r : Lane τ × Scene σ, Gone id t { s with world } r → Gone id t s r := by
    rintro r ⟨new, goes, hchanges, owns⟩
    exact ⟨new, goes, by simpa using hworld.trans hchanges, owns⟩
  cases halt with
  | ended r => exact lift _ ⟨_, .ends r, Scene.changes_callFor _ _, trivial⟩
  | turn limit next => exact lift _ (gone_beginStep (hworld.numbered numbered) fun _ => hfollows)
  | call limit ref request next =>
    exact lift _ (gone_beginStep (hworld.numbered numbered) hfollows)
  | wait seconds next =>
    refine lift _ ?_
    simp only
    split
    · exact ⟨_, .pauses hfollows (.inl rfl), Scene.changes_callFor _ _, trivial⟩
    · exact ⟨_, .pauses hfollows (.inr rfl), Scene.changes_setAlarm _ _ _, trivial⟩

/-- A lane has moved on in a turn. -/
def Moved (id : LaneId) (cue : Cue) (s : Scene σ) (l : Lane τ) (r : Lane τ × Scene σ) : Prop :=
  ∃ gone new, l.Moves id cue r.1 gone new ∧ s.Changes r.2 gone new ∧ r.1.Owns id r.2

/-- A step that has ended needs no alarm for the end of its time. -/
theorem changes_callOffLimit (owns : st.Owns id s) :
    ∃ gone,
      s.Changes (match st.limit with
        | some number => s.callOff number
        | none => s) gone 0 ∧ ∀ t ∈ gone, t = .lane id .limit := by
  cases hlimit : st.limit with
  | none => exact ⟨0, .refl s, fun _ h => absurd h (Multiset.notMem_zero _)⟩
  | some number => exact Scene.changes_callOff (owns.limit number hlimit)

theorem moved_look {next : Option Answer → Activity LaneResult} (numbered : s.Numbered)
    (owns : st.Owns id s) :
    Moved id .goOn s (.stepping st next) (look a id st next s) := by
  unfold look
  split
  · rename_i answer hwork
    obtain ⟨gone, hchanges, hgone⟩ := changes_callOffLimit owns
    obtain ⟨new, goes, hgoes, howns⟩ := gone_goOn a id (next answer) (hchanges.numbered numbered)
    have htrans := hchanges.trans hgoes
    rw [add_zero, zero_add] at htrans
    exact ⟨gone, new, .looks hwork hgone goes, htrans, howns⟩
  · rename_i hwork
    have unfinished : st.work.isEnded = false := by
      cases h : st.work with
      | ended answer => exact absurd h (hwork answer)
      | fresh | resting | due => rfl
    obtain ⟨gone, new, moves, hchanges, howns⟩ := moved_giveUp owns unfinished
    exact ⟨gone, new, .steps moves next, hchanges, howns⟩

/-- What a lane does in a turn is one of its moves. -/
theorem moved_act (a : Adapter τ σ) (numbered : s.Numbered) (cue : Cue) (owns : l.Owns id s) :
    Moved id cue s l (act a id cue l s) := by
  cases l with
  | ended r =>
    have hact : act a id cue (.ended r) s = (.ended r, s) := by cases cue <;> rfl
    rw [hact]
    exact ⟨0, 0, .done cue r, .refl s, trivial⟩
  | going t =>
    cases cue with
    | goOn =>
      obtain ⟨new, goes, hchanges, howns⟩ := gone_goOn a id t numbered
      exact ⟨0, new, .goes goes, hchanges, howns⟩
    | rested => exact ⟨0, _, .wakes t, Scene.changes_callFor s _, trivial⟩
    | work | report | limit => exact ⟨0, 0, .ignores t ⟨nofun, nofun⟩, .refl s, trivial⟩
  | stepping st next =>
    have hstep : ∀ cue, cue ≠ .goOn → Moved id cue s (.stepping st next)
        (.stepping (stepTurn a id st cue s).1 next, (stepTurn a id st cue s).2) := by
      intro cue hcue
      obtain ⟨gone, new, moves, hchanges, howns⟩ := moved_stepTurn a cue numbered owns hcue
      exact ⟨gone, new, .steps moves next, hchanges, howns⟩
    cases cue with
    | goOn => exact moved_look numbered owns
    | work | rested | report | limit => exact hstep _ nofun

end Lane

/-! ## What a lane takes away and adds -/

variable {cue : Cue} {st' : Stint τ} {l' : Lane τ} {P P' : Multiset Turn}

theorem Stint.Moves.own (h : st.Moves id cue st' gone new) :
    (∀ t ∈ gone, ∃ cue, t = .lane id cue) ∧ ∀ t ∈ new, ∃ cue, t = .lane id cue := by
  have hzero : ∀ t ∈ (0 : Multiset Turn), ∃ cue, t = .lane id cue :=
    fun _ h => absurd h (Multiset.notMem_zero _)
  have hone : ∀ cue, ∀ t ∈ ({.lane id cue} : Multiset Turn), ∃ cue, t = .lane id cue :=
    fun cue t h => ⟨cue, Multiset.mem_singleton.mp h⟩
  cases h with
  | ends answer rest => exact ⟨fun t ht => ⟨_, rest t ht⟩, hone _⟩
  | calls | rests | wakes | notices => exact ⟨hzero, hone _⟩
  | worksNot | wakesNot | noticesNot | waits => exact ⟨hzero, hzero⟩
  | givesUp =>
    refine ⟨hzero, ?_⟩
    split
    · exact hone _
    · exact hzero

namespace Lane

def isEnded (l : Lane τ) : Bool := l.result?.isSome

theorem Goes.own {t : Activity LaneResult} (h : Goes id t l new) :
    (l.isEnded = true ∧ new = {.tally id.job}) ∨
      l.isEnded = false ∧ ∀ u ∈ new, ∃ cue, u = .lane id cue := by
  cases h with
  | ends r => exact .inl ⟨rfl, rfl⟩
  | pauses | hurries =>
    exact .inr ⟨rfl, fun u hu => ⟨_, Multiset.mem_singleton.mp hu⟩⟩
  | begins =>
    refine .inr ⟨rfl, fun u hu => ?_⟩
    rcases Multiset.mem_add.mp hu with hu | hu
    · exact ⟨_, Multiset.mem_singleton.mp hu⟩
    · exact ⟨_, Multiset.mem_singleton.mp hu⟩

/-- A lane takes away turns of its own only. It adds turns of its own, and when it ends, the one in
which its end is counted. What has ended stays as it is. -/
theorem Moves.own (h : l.Moves id cue l' gone new) :
    (∀ t ∈ gone, ∃ cue, t = .lane id cue) ∧
      ((l.isEnded = false ∧ l'.isEnded = true ∧ new = {.tally id.job}) ∨
        l'.isEnded = l.isEnded ∧ (l.isEnded = true → l' = l) ∧ ∀ t ∈ new, ∃ cue, t = .lane id cue) := by
  have hzero : ∀ t ∈ (0 : Multiset Turn), ∃ cue, t = .lane id cue :=
    fun _ h => absurd h (Multiset.notMem_zero _)
  cases h with
  | done cue r => exact ⟨hzero, .inr ⟨rfl, fun _ => rfl, hzero⟩⟩
  | wakes t =>
    exact ⟨hzero, .inr ⟨rfl, fun _ => rfl, fun u hu => ⟨_, Multiset.mem_singleton.mp hu⟩⟩⟩
  | ignores => exact ⟨hzero, .inr ⟨rfl, fun _ => rfl, hzero⟩⟩
  | steps h next => exact ⟨h.own.1, .inr ⟨rfl, nofun, h.own.2⟩⟩
  | goes on =>
    rcases on.own with ⟨hended, hnew⟩ | ⟨hended, hnew⟩
    · exact ⟨hzero, .inl ⟨rfl, hended, hnew⟩⟩
    · exact ⟨hzero, .inr ⟨hended, nofun, hnew⟩⟩
  | looks ended limits on =>
    have hgone : ∀ t ∈ gone, ∃ cue, t = .lane id cue := fun t ht => ⟨_, limits t ht⟩
    rcases on.own with ⟨hended, hnew⟩ | ⟨hended, hnew⟩
    · exact ⟨hgone, .inl ⟨rfl, hended, hnew⟩⟩
    · exact ⟨hgone, .inr ⟨hended, nofun, hnew⟩⟩

end Lane

/-! ## Something is always pending -/

/-- What a step under way waits for is pending. -/
structure Stint.Alive (id : LaneId) (P : Multiset Turn) (st : Stint τ) : Prop where
  noticed : st.isNoticed = true → .lane id .goOn ∈ P
  work : match st.work with
    | .fresh _ | .due _ => .lane id .work ∈ P
    | .resting .. => .lane id .rested ∈ P ∨ st.isGivenUp = true ∧ .lane id .work ∈ P
    | .ended _ => .lane id (.report st.limit) ∈ P ∨ st.isNoticed = true

/-- What a lane waits for is pending. -/
def Lane.Alive (id : LaneId) (P : Multiset Turn) : Lane τ → Prop
  | .going _ => .lane id .goOn ∈ P ∨ .lane id .rested ∈ P
  | .stepping st _ => st.Alive id P
  | .ended _ => True

/-- The turns of which one gets a step under way further. -/
def Stint.Awaits (st : Stint τ) (cue : Cue) : Prop :=
  match st.work with
  | .fresh _ | .due _ => cue = .work
  | .resting .. => cue = .rested ∨ st.isGivenUp = true ∧ cue = .work
  | .ended _ => cue = .report st.limit

theorem Stint.Awaits.cases (h : st.Awaits cue) :
    (cue = .work ∧ st.work.isEnded = false ∧ (st.work.isResting = true → st.isGivenUp = true)) ∨
      (cue = .rested ∧ st.work.isResting = true) ∨
      (cue = .report st.limit ∧ st.work.isEnded = true) := by
  unfold Stint.Awaits at h
  cases hst : st.work with
  | fresh | due =>
    rw [hst] at h
    exact .inl ⟨h, rfl, nofun⟩
  | resting =>
    simp only [hst] at h
    rcases h with h | ⟨hoff, h⟩
    · exact .inr (.inl ⟨h, rfl⟩)
    · exact .inl ⟨h, rfl, fun _ => hoff⟩
  | ended =>
    rw [hst] at h
    exact .inr (.inr ⟨h, rfl⟩)

/-- A step waits for one of these turns, unless it has been noticed that its work has ended. -/
theorem Stint.alive_iff : st.Alive id P ↔ (st.isNoticed = true → .lane id .goOn ∈ P) ∧
    ((∃ cue, st.Awaits cue ∧ .lane id cue ∈ P) ∨
      st.work.isEnded = true ∧ st.isNoticed = true) := by
  refine ⟨fun ⟨noticed, work⟩ => ⟨noticed, ?_⟩, fun ⟨noticed, work⟩ => ⟨noticed, ?_⟩⟩
  · unfold Stint.Awaits
    cases hst : st.work with
    | fresh | due | resting | ended => simpa [hst, Work.isEnded, or_and_right, exists_or] using work
  · unfold Stint.Awaits at work
    cases hst : st.work with
    | fresh | due | resting | ended => simpa [hst, Work.isEnded, or_and_right, exists_or] using work

theorem Lane.Alive.mono (h : l.Alive id P) (kept : ∀ cue, .lane id cue ∈ P → .lane id cue ∈ P') :
    l.Alive id P' := by
  cases l with
  | ended => exact trivial
  | going t => exact h.imp (kept _) (kept _)
  | stepping st next =>
    obtain ⟨noticed, work⟩ := Stint.alive_iff.mp h
    exact Stint.alive_iff.mpr ⟨fun hn => kept _ (noticed hn),
      work.imp_left fun ⟨cue, awaits, hmem⟩ => ⟨cue, awaits, kept cue hmem⟩⟩

/-- A lane that has not ended has something pending. -/
theorem Lane.Alive.exists_mem (h : l.Alive id P) (unfinished : l.isEnded = false) :
    ∃ cue, .lane id cue ∈ P := by
  cases l with
  | ended => cases unfinished
  | going t => exact h.elim (fun h => ⟨_, h⟩) fun h => ⟨_, h⟩
  | stepping st next =>
    obtain ⟨noticed, ⟨cue, -, hmem⟩ | ⟨-, hn⟩⟩ := Stint.alive_iff.mp h
    · exact ⟨cue, hmem⟩
    · exact ⟨_, noticed hn⟩

/-- A step that moves on gets what it waits for. -/
theorem Stint.Moves.alive (h : st.Moves id cue st' gone new) (hs : s.Changes s' gone new)
    (alive : st.Alive id (.lane id cue ::ₘ s.pending)) : st'.Alive id s'.pending := by
  obtain ⟨noticed, work⟩ := Stint.alive_iff.mp alive
  rw [Stint.alive_iff]
  -- what is pending besides this turn stays pending, and so does what is new
  have kept : gone = 0 → ∀ {cue'}, .lane id cue' ∈ Turn.lane id cue ::ₘ s.pending → cue' ≠ cue →
      .lane id cue' ∈ s'.pending := by
    rintro rfl cue' hmem hne
    refine hs.mem ((Multiset.mem_cons.mp hmem).resolve_left fun h => ?_) (Multiset.notMem_zero _)
    injection h with _ h
    exact hne h
  have added : gone = 0 → ∀ {t}, new = {t} → t ∈ s'.pending := by
    rintro rfl t rfl
    exact hs.mem_new (Multiset.mem_singleton_self _) (Multiset.notMem_zero _)
  cases h with
  | ends answer rest =>
    refine ⟨fun hn => ?_, .inl ⟨_, rfl, hs.mem_new (Multiset.mem_singleton_self _) fun h => ?_⟩⟩
    · have hmem := Multiset.mem_cons.mp (noticed hn)
      refine hs.mem (hmem.resolve_left nofun) fun h => ?_
      cases rest _ h
    · cases rest _ h
  | calls pending fresh =>
    exact ⟨fun hn => kept rfl (noticed hn) nofun, .inl ⟨_, rfl, added rfl rfl⟩⟩
  | rests number pending fresh =>
    exact ⟨fun hn => kept rfl (noticed hn) nofun, .inl ⟨_, .inl rfl, added rfl rfl⟩⟩
  | wakes resting =>
    exact ⟨fun hn => kept rfl (noticed hn) nofun, .inl ⟨_, rfl, added rfl rfl⟩⟩
  | worksNot on idle =>
    refine ⟨fun hn => kept rfl (noticed hn) nofun, work.imp_left fun ⟨cue', awaits, hmem⟩ =>
      ⟨cue', awaits, kept rfl hmem ?_⟩⟩
    rcases awaits.cases with ⟨-, unended, given⟩ | ⟨rfl, -⟩ | ⟨rfl, -⟩
    · rcases idle with resting | ended
      · rw [given resting] at on
        cases on
      · rw [ended] at unended
        cases unended
    · nofun
    · nofun
  | wakesNot idle =>
    refine ⟨fun hn => kept rfl (noticed hn) nofun, work.imp_left fun ⟨cue', awaits, hmem⟩ =>
      ⟨cue', awaits, kept rfl hmem ?_⟩⟩
    rcases awaits.cases with ⟨rfl, -⟩ | ⟨-, resting⟩ | ⟨rfl, -⟩
    · nofun
    · rw [resting] at idle
      cases idle
    · nofun
  | notices alert =>
    have hne : cue ≠ .work ∧ cue ≠ .rested := by
      rcases alert with rfl | rfl
      · exact ⟨nofun, nofun⟩
      · exact ⟨nofun, nofun⟩
    refine ⟨fun _ => added rfl rfl, ?_⟩
    rcases work with ⟨cue', awaits, hmem⟩ | ⟨ended, -⟩
    · rcases awaits.cases with ⟨rfl, -⟩ | ⟨rfl, -⟩ | ⟨-, ended⟩
      · exact .inl ⟨_, awaits, kept rfl hmem hne.1.symm⟩
      · exact .inl ⟨_, awaits, kept rfl hmem hne.2.symm⟩
      · exact .inr ⟨ended, rfl⟩
    · exact .inr ⟨ended, rfl⟩
  | noticesNot calm alert =>
    have hne : cue ≠ .work ∧ cue ≠ .rested ∧ cue ≠ .goOn := by
      rcases alert with rfl | ⟨limit, rfl⟩
      · exact ⟨nofun, nofun, nofun⟩
      · exact ⟨nofun, nofun, nofun⟩
    refine ⟨fun hn => kept rfl (noticed hn) hne.2.2.symm, ?_⟩
    rcases work with ⟨cue', awaits, hmem⟩ | hended
    · rcases awaits.cases with ⟨rfl, -⟩ | ⟨rfl, -⟩ | ⟨rfl, ended⟩
      · exact .inl ⟨_, awaits, kept rfl hmem hne.1.symm⟩
      · exact .inl ⟨_, awaits, kept rfl hmem hne.2.1.symm⟩
      · -- a report of this step is needed only as long as it has not been noticed
        rcases calm with hn | ⟨limit, rfl, hother⟩
        · exact .inr ⟨ended, hn⟩
        · refine .inl ⟨_, awaits, kept rfl hmem fun heq => hother ?_⟩
          injection heq with heq
          exact heq.symm
    · exact .inr hended
  | givesUp unfinished on =>
    refine ⟨nofun, .inl ⟨.work, ?_⟩⟩
    rcases work with ⟨cue', awaits, hmem⟩ | ⟨ended, -⟩
    · cases hst : st.work with
      | fresh | due =>
        simp only [Stint.Awaits, hst] at awaits ⊢
        exact ⟨trivial, kept rfl (awaits ▸ hmem) nofun⟩
      | resting =>
        simp only [Stint.Awaits]
        exact ⟨.inr ⟨trivial, trivial⟩, added rfl (by rw [hst]; rfl)⟩
      | ended =>
        rw [hst] at unfinished
        cases unfinished
    · rw [ended] at unfinished
      cases unfinished
  | waits unfinished off =>
    refine ⟨nofun, ?_⟩
    rcases work with ⟨cue', awaits, hmem⟩ | ⟨ended, -⟩
    · refine .inl ⟨cue', awaits, kept rfl hmem ?_⟩
      rcases awaits.cases with ⟨rfl, -⟩ | ⟨rfl, -⟩ | ⟨rfl, -⟩ <;> nofun
    · rw [ended] at unfinished
      cases unfinished

theorem Lane.Goes.alive {t : Activity LaneResult} (h : Goes id t l new) (hs : s.Changes s' gone new)
    (limits : ∀ u ∈ gone, u = .lane id .limit) : l.Alive id s'.pending := by
  have added : ∀ u ∈ new, u ≠ .lane id .limit → u ∈ s'.pending :=
    fun u hu hne => hs.mem_new hu fun hgone => hne (limits u hgone)
  cases h with
  | ends r => exact trivial
  | pauses before alert =>
    rcases alert with rfl | rfl
    · exact .inl (added _ (Multiset.mem_singleton_self _) nofun)
    · exact .inr (added _ (Multiset.mem_singleton_self _) nofun)
  | begins before call number =>
    exact ⟨nofun, added _ (Multiset.mem_add.mpr (.inr (Multiset.mem_singleton_self _))) nofun⟩
  | hurries before call => exact ⟨nofun, added _ (Multiset.mem_singleton_self _) nofun⟩

/-- A lane that moves on gets what it waits for. -/
theorem Lane.Moves.alive (h : l.Moves id cue l' gone new) (hs : s.Changes s' gone new)
    (alive : l.Alive id (.lane id cue ::ₘ s.pending)) : l'.Alive id s'.pending := by
  cases h with
  | done => exact trivial
  | goes on => exact on.alive hs fun _ h => absurd h (Multiset.notMem_zero _)
  | wakes t => exact .inl (hs.mem_new (Multiset.mem_singleton_self _) (Multiset.notMem_zero _))
  | ignores t idle =>
    have kept : ∀ cue', cue ≠ cue' → .lane id cue' ∈ Turn.lane id cue ::ₘ s.pending →
        .lane id cue' ∈ s'.pending := by
      intro cue' hne hmem
      refine hs.mem ((Multiset.mem_cons.mp hmem).resolve_left fun h => ?_) (Multiset.notMem_zero _)
      injection h with _ h
      exact hne h.symm
    exact alive.imp (kept _ idle.1) (kept _ idle.2)
  | steps h next => exact h.alive hs alive
  | looks ended limits on => exact on.alive hs limits

end Conveyor.Worker
