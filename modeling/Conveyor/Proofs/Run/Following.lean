import Conveyor.Proofs.Run.Bound
import Conveyor.Proofs.Run.Course

/-!
# Worlds that follow one another

What a world becomes by the events of an activity: its log has their changes, the ids that were
drawn are the next ones, and the clock shows the same moment all the time. An activity that is
carried out bit by bit follows a course of its own, whatever happens in between.
-/

namespace Conveyor

open Activity

variable {α σ τ : Type}

namespace World

/-- A world follows another by some events. -/
structure Follows (w : World σ) (events : List Event) (w' : World σ) : Prop where
  log : w'.log = (logOps events).foldl LogOp.apply w.log
  drawn : w'.drawn = w.drawn + (drawnIds events).length
  ids : drawnIds events = (List.range' (w.drawn + 1) (drawnIds events).length).map idText
  now : w'.now = w.now
  clock : ∀ t : Moment, ⟨.now, t⟩ ∈ events → t = w.now

variable {w w' w'' : World σ} {events events' : List Event}

/-- What is not seen of a world does not matter. -/
theorem follows_nil (log : w'.log = w.log) (drawn : w'.drawn = w.drawn) (now : w'.now = w.now) :
    w.Follows [] w' := ⟨log, drawn, rfl, now, nofun⟩

theorem Follows.trans (h : w.Follows events w') (h' : w'.Follows events' w'') :
    w.Follows (events ++ events') w'' where
  log := by rw [h'.log, h.log, logOps_append, List.foldl_append]
  drawn := by rw [h'.drawn, h.drawn, drawnIds_append, List.length_append, Nat.add_assoc]
  ids := by
    have hids := h'.ids
    rw [h.drawn, Nat.add_right_comm] at hids
    rw [drawnIds_append, List.length_append, ← List.range'_append_1, List.map_append, ← h.ids, ← hids]
  now := h'.now.trans h.now
  clock t ht := by
    rcases List.mem_append.mp ht with ht | ht
    · exact h.clock t ht
    · exact (h'.clock t ht).trans h.now

/-- A reply to a request. -/
theorem follows_reply (a : Adapter τ σ) (q : Ask) (w : World σ) :
    w.Follows [⟨q, (reply a q w).1⟩] (reply a q w).2 where
  log := log_reply a q w
  drawn := by
    cases q with
    | call limit ref r => exact callWithin_drawn a limit ref r w
    | wait seconds => exact pass_drawn seconds w
    | _ => rfl
  ids := by cases q <;> rfl
  now := by
    cases q with
    | call limit ref r =>
      simp only [reply, callWithin]
      split
      · simp only [passLimit, pass]
        split
        · rfl
        · split <;> rfl
      · simp only [pass, fetch]
        split <;> rfl
    | wait seconds =>
      simp only [reply, pass]
      split <;> rfl
    | _ => rfl
  clock t ht := by
    have heq := List.mem_singleton.mp ht
    injection heq with hask hreply
    subst hask
    exact eq_of_heq hreply

/-- The end of a stop leaves no trace. -/
theorem follows_halt {e : Event} (halt : e.ask.isHalt = true) (w : World σ) : w.Follows [e] w := by
  obtain ⟨q, r⟩ := e
  refine ⟨?_, ?_, ?_, rfl, fun t ht => ?_⟩
  · cases q <;> first | rfl | cases halt
  · cases q <;> first | rfl | cases halt
  · cases q <;> first | rfl | cases halt
  · obtain heq := List.mem_singleton.mp ht
    injection heq with heq
    subst heq
    cases halt

/-- An activity that is carried out at one go. -/
theorem follows_carryOut (a : Adapter τ σ) (t : Activity α) (w : World σ) :
    w.Follows (Activity.events (reply a) t w) (w.carryOut a t).2 := by
  induction t generalizing w with
  | done b => exact follows_nil rfl rfl rfl
  | ask q next ih => exact (follows_reply a q w).trans (ih _ _)

end World

/-- What an activity comes to from where it has stopped. -/
def Halt.Course : Halt α → List Event → α → Prop
  | .ended a, events, b => events = [] ∧ b = a
  | .turn limit next, events, b => ∃ rest, events = ⟨.turn limit, ()⟩ :: rest ∧ Activity.Course next rest b
  | .call limit ref request next, events, b =>
    ∃ answer rest, events = ⟨.call limit ref request, answer⟩ :: rest ∧ Activity.Course (next answer) rest b
  | .wait seconds next, events, b =>
    ∃ rest, events = ⟨.wait seconds, ()⟩ :: rest ∧ Activity.Course next rest b

namespace Activity

/-- What an activity does until it stops begins all of its courses from there. -/
theorem course_advance (a : Adapter τ σ) (t : Activity α) (w : World σ) :
    ∃ events, w.Follows events (t.advance (World.reply a) w).2 ∧
      ∀ rest b, (t.advance (World.reply a) w).1.Course rest b → Course t (events ++ rest) b := by
  induction t generalizing w with
  | done a =>
    refine ⟨[], World.follows_nil rfl rfl rfl, ?_⟩
    rintro rest b ⟨rfl, rfl⟩
    exact .done _
  | ask q next ih =>
    have hcalm : ∃ events, w.Follows events ((next (World.reply a q w).1).advance (World.reply a)
          (World.reply a q w).2).2 ∧
        ∀ rest b, ((next (World.reply a q w).1).advance (World.reply a)
          (World.reply a q w).2).1.Course rest b → Course (.ask q next) (events ++ rest) b := by
      obtain ⟨events, hfollows, hcourse⟩ := ih (World.reply a q w).1 (World.reply a q w).2
      exact ⟨⟨q, _⟩ :: events, (World.follows_reply a q w).trans hfollows,
        fun rest b h => .ask _ (hcourse rest b h)⟩
    have hself : ∀ w : World σ, w.Follows [] w := fun w => World.follows_nil rfl rfl rfl
    cases q with
    | turn limit =>
      refine ⟨[], hself w, ?_⟩
      rintro _ b ⟨rest, rfl, h⟩
      exact .ask (q := .turn limit) () h
    | call limit ref request =>
      refine ⟨[], hself w, ?_⟩
      rintro _ b ⟨answer, rest, rfl, h⟩
      exact .ask answer h
    | wait seconds =>
      refine ⟨[], hself w, ?_⟩
      rintro _ b ⟨rest, rfl, h⟩
      exact .ask (q := .wait seconds) () h
    | now | drawId | draw | append | update | discard => exact hcalm

end Activity
end Conveyor
