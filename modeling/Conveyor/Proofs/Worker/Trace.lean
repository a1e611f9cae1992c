import Conveyor.Proofs.Run.Following
import Conveyor.Worker.Lane

/-!
# The course of a lane

The turns of a lane, taken one after the other, are a course of its run, and the world follows it by
just the events of that course.
-/

namespace Conveyor.Worker.Lane

open Activity

variable {τ σ : Type} {a : Adapter τ σ} {id : LaneId} {s : Scene σ} {run : Activity LaneResult}
  {events : List Event}

/-- A run has got by some events to where the lane is. -/
def Traces (run : Activity LaneResult) (events : List Event) : Lane τ → Prop
  | .going t => ∀ rest r, Course t rest r → Course run (events ++ rest) r
  | .stepping _ next => ∀ answer, ∃ e : Event, e.ask.isHalt = true ∧
      ∀ rest r, Course (next answer) rest r → Course run (events ++ e :: rest) r
  | .ended r => Course run events r

theorem traces_going (run : Activity LaneResult) : (going run : Lane τ).Traces run [] :=
  fun _ _ h => h

/-- A lane has got further, and the world with it. -/
def Follows (run : Activity LaneResult) (events : List Event) (s : Scene σ) (r : Lane τ × Scene σ) :
    Prop :=
  ∃ more, r.1.Traces run (events ++ more) ∧ s.world.Follows more r.2.world

theorem follows_beginStep {more : List Event} {limit : Binary64}
    {call : Option (DestinationRef × Request)} {next : Option Answer → Activity LaneResult}
    {w : World σ} (follows : w.Follows more s.world)
    (traces : ∀ answer, ∃ e : Event, e.ask.isHalt = true ∧
      ∀ rest r, Course (next answer) rest r → Course run (events ++ more ++ e :: rest) r) :
    ∃ more, (beginStep id limit call next s : Lane τ × Scene σ).1.Traces run (events ++ more) ∧
      w.Follows more (beginStep id limit call next s : Lane τ × Scene σ).2.world := by
  unfold beginStep
  split
  · exact ⟨more, traces, follows⟩
  · exact ⟨more, traces, follows⟩

theorem follows_goOn (a : Adapter τ σ) (id : LaneId) (s : Scene σ) {t : Activity LaneResult}
    (traces : ∀ rest r, Course t rest r → Course run (events ++ rest) r) :
    Follows run events s (goOn a id t s) := by
  obtain ⟨more, follows, course⟩ := course_advance a t s.world
  have hcourse : ∀ rest r, (t.advance (World.reply a) s.world).1.Course rest r →
      Course run (events ++ more ++ rest) r := by
    intro rest r h
    rw [List.append_assoc]
    exact traces _ _ (course rest r h)
  unfold goOn
  generalize t.advance (World.reply a) s.world = r at follows hcourse
  obtain ⟨halt, world⟩ := r
  cases halt with
  | ended r =>
    refine ⟨more, ?_, follows⟩
    have h := hcourse [] r ⟨rfl, rfl⟩
    rwa [List.append_nil] at h
  | turn limit next =>
    exact follows_beginStep (s := { s with world }) follows fun answer =>
      ⟨⟨.turn limit, ()⟩, rfl, fun rest r h => hcourse _ _ ⟨rest, rfl, h⟩⟩
  | call limit ref request next =>
    exact follows_beginStep (s := { s with world }) follows fun answer =>
      ⟨⟨.call limit ref request, answer⟩, rfl, fun rest r h => hcourse _ _ ⟨answer, rest, rfl, h⟩⟩
  | wait seconds next =>
    have hwait := follows.trans (World.follows_halt (e := ⟨.wait seconds, ()⟩) rfl _)
    have htraces : ∀ rest r, Course next rest r →
        Course run (events ++ (more ++ [⟨.wait seconds, ()⟩]) ++ rest) r := by
      intro rest r h
      rw [← List.append_assoc, List.append_assoc _ _ rest]
      exact hcourse _ _ ⟨rest, rfl, h⟩
    simp only
    split
    · exact ⟨_, htraces, hwait⟩
    · exact ⟨_, htraces, hwait⟩

/-! ## The work of a step leaves no trace -/

theorem follows_stepTurn (a : Adapter τ σ) {st : Stint τ} (cue : Cue) :
    s.world.Follows [] (stepTurn a id st cue s).2.world := by
  have hself : s.world.Follows [] s.world := World.follows_nil rfl rfl rfl
  have hnotice : s.world.Follows [] (notice id st s).2.world := by
    unfold notice
    split <;> exact hself
  cases cue with
  | goOn => exact hself
  | limit => exact hnotice
  | rested =>
    show s.world.Follows [] (endRest id st s).2.world
    unfold endRest
    split <;> exact hself
  | report limit =>
    show s.world.Follows [] (if limit = st.limit then notice id st s else (st, s)).2.world
    split
    · exact hnotice
    · exact hself
  | work =>
    show s.world.Follows [] (doWork a id st s).2.world
    unfold doWork
    split
    · exact hself
    · exact hself
    · rename_i call _ _
      unfold beginWork
      split
      · exact hself
      · simp only
        split
        · exact World.follows_nil rfl rfl rfl
        · split
          · exact World.follows_nil rfl rfl rfl
          · exact World.follows_nil rfl rfl rfl
    · exact World.follows_nil rfl rfl rfl
    · exact hself

/-- Whatever a lane does in a turn, it gets further on a course of its run. -/
theorem follows_act (a : Adapter τ σ) (id : LaneId) (cue : Cue) (s : Scene σ) {l : Lane τ}
    (traces : l.Traces run events) : Follows run events s (act a id cue l s) := by
  have hself : s.world.Follows [] s.world := World.follows_nil rfl rfl rfl
  have hstay : ∀ (l : Lane τ) (s' : Scene σ), l.Traces run events → s.world.Follows [] s'.world →
      Follows run events s (l, s') := by
    intro l s' hl hs'
    refine ⟨[], ?_, hs'⟩
    rwa [List.append_nil]
  cases l with
  | ended r =>
    have hact : act a id cue (.ended r) s = (.ended r, s) := by cases cue <;> rfl
    rw [hact]
    exact hstay _ _ traces hself
  | going t =>
    cases cue with
    | goOn => exact follows_goOn a id s traces
    | rested | work | report | limit => exact hstay _ _ traces hself
  | stepping st next =>
    cases cue with
    | work => exact hstay _ _ traces (follows_stepTurn a .work)
    | rested => exact hstay _ _ traces (follows_stepTurn a .rested)
    | report limit => exact hstay _ _ traces (follows_stepTurn a (.report limit))
    | limit => exact hstay _ _ traces (follows_stepTurn a .limit)
    | goOn =>
      unfold act look
      simp only
      split
      · rename_i answer _
        obtain ⟨e, halt, hnext⟩ := traces answer
        have hon : ∀ rest r, Course (next answer) rest r → Course run (events ++ [e] ++ rest) r := by
          intro rest r h
          rw [List.append_assoc]
          exact hnext rest r h
        have hoff : ∀ s' : Scene σ, s'.world = s.world →
            Follows run events s (goOn a id (next answer) s') := by
          intro s' hs'
          obtain ⟨more, htraces, hfollows⟩ := follows_goOn a id s' hon
          refine ⟨e :: more, ?_, ?_⟩
          · rwa [List.append_assoc] at htraces
          · rw [hs'] at hfollows
            exact (World.follows_halt halt s.world).trans hfollows
        split
        · exact hoff _ rfl
        · exact hoff _ rfl
      · refine hstay _ _ traces ?_
        unfold giveUp
        split
        · exact hself
        · simp only
          split <;> exact hself

/-- Every lane is on the way of some run. -/
theorem exists_traces (l : Lane τ) : ∃ run, l.Traces run [] := by
  cases l with
  | going t => exact ⟨t, traces_going t⟩
  | stepping st next =>
    -- a run that stops for a call, and goes on as the lane does
    let call : Ask := .call .zero ⟨.rest, 0⟩ (.rest {})
    exact ⟨.ask call next, fun answer => ⟨⟨call, answer⟩, rfl, fun _ _ h => .ask _ h⟩⟩
  | ended r => exact ⟨.done r, .done r⟩

/-- A turn takes no time. -/
theorem now_act (a : Adapter τ σ) (id : LaneId) (cue : Cue) (l : Lane τ) (s : Scene σ) :
    (act a id cue l s).2.world.now = s.world.now := by
  obtain ⟨run, htraces⟩ := l.exists_traces
  obtain ⟨more, -, follows⟩ := follows_act a id cue s htraces
  exact follows.now

end Conveyor.Worker.Lane
