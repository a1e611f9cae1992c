import Mathlib.Algebra.Order.BigOperators.Group.List
import Mathlib.Algebra.Order.Group.Nat
import Conveyor.Run.Execution

/-!
# How often a run lets others go first

Whatever it is replied, an activity may stop to let others go first only so many times before it is
done. A run stops once for every attempt at a step and once between two attempts, so the retries of
its steps and the number of steps it may take bound how often it stops.
-/

namespace Conveyor

variable {α β σ : Type}

/-- Whether an activity stops at the request to let others go first. -/
def Ask.isHalt : Ask → Bool
  | .turn _ | .call .. | .wait _ => true
  | .now | .drawId | .draw | .append _ | .update _ | .discard _ => false

namespace Activity

/-- The activity is done after stopping at most so many times, whatever the replies are. -/
inductive Within : Nat → Activity α → Prop where
  | done {n : Nat} (a : α) : Within n (.done a)
  | calm {n : Nat} {q : Ask} {next : q.Reply → Activity α} (calm : q.isHalt = false)
      (rest : ∀ r, Within n (next r)) : Within n (.ask q next)
  | halt {n : Nat} {q : Ask} {next : q.Reply → Activity α} (rest : ∀ r, Within n (next r)) :
      Within (n + 1) (.ask q next)

theorem Within.mono {m n : Nat} {t : Activity α} (h : Within m t) (hle : m ≤ n) : Within n t := by
  induction h generalizing n with
  | done a => exact .done a
  | calm hcalm _ ih => exact .calm hcalm fun r => ih r hle
  | halt _ ih =>
    obtain ⟨n, rfl⟩ : ∃ k, n = k + 1 := ⟨n - 1, by omega⟩
    exact .halt fun r => ih r (by omega)

theorem Within.bind {m n : Nat} {t : Activity α} {f : α → Activity β} (h : Within m t)
    (rest : ∀ a, Within n (f a)) : Within (m + n) (t >>= f) := by
  show Within (m + n) (t.bind f)
  induction h with
  | done a => exact (rest a).mono (Nat.le_add_left n _)
  | calm hcalm _ ih => exact .calm hcalm ih
  | @halt m q next _ ih =>
    rw [Nat.add_right_comm]
    exact .halt ih

/-- A part that does not stop does not count, neither before nor after another. -/
theorem Within.after {n : Nat} {t : Activity α} {f : α → Activity β} (h : Within 0 t)
    (rest : ∀ a, Within n (f a)) : Within n (t >>= f) := Nat.zero_add n ▸ h.bind rest

theorem Within.andThen {n : Nat} {t : Activity α} {f : α → Activity β} (h : Within n t)
    (rest : ∀ a, Within 0 (f a)) : Within n (t >>= f) := h.bind rest

/-- The rest of an activity after a stop stops once less. -/
def Before (next t : Activity α) : Prop := ∀ n, Within n t → 1 ≤ n ∧ Within (n - 1) next

theorem before_halt {q : Ask} (halts : q.isHalt = true) (next : q.Reply → Activity α)
    (r : q.Reply) : Before (next r) (.ask q next) := by
  intro n h
  cases h with
  | calm hcalm =>
    rw [halts] at hcalm
    cases hcalm
  | halt rest => exact ⟨Nat.succ_pos _, rest r⟩

theorem Before.calm {q : Ask} {next : q.Reply → Activity α} {r : q.Reply} {t : Activity α}
    (h : Before t (next r)) : Before t (.ask q next) := by
  intro n hn
  cases hn with
  | calm _ rest => exact h n (rest r)
  | halt rest => exact h _ ((rest r).mono (Nat.le_succ _))

end Activity

open Activity in
/-- What is left of an activity after it has stopped stops once less. -/
def Halt.Follows (t : Activity α) : Halt α → Prop
  | .ended _ => True
  | .turn _ next | .wait _ next => Before next t
  | .call _ _ _ next => ∀ answer, Before (next answer) t

namespace Activity

theorem follows_advance (s : Surroundings σ) (t : Activity α) (st : σ) :
    Halt.Follows t (t.advance s st).1 := by
  induction t generalizing st with
  | done a => exact trivial
  | ask q next ih =>
    have hcalm : ∀ r : q.Reply, ∀ h : Halt α, Halt.Follows (next r) h → Halt.Follows (.ask q next) h := by
      intro r h hfollows
      cases h with
      | ended => exact trivial
      | turn | wait => exact Before.calm hfollows
      | call => exact fun answer => Before.calm (hfollows answer)
    cases q with
    | turn | wait => exact before_halt rfl next ()
    | call => exact before_halt rfl next
    | now | drawId | draw | append | update | discard => exact hcalm _ _ (ih _ _)

end Activity

namespace Run

open Activity

theorem within_pure {n : Nat} {a : α} : Within n (pure a : Activity α) := .done a

theorem within_request_bind {n : Nat} {q : Ask} {f : q.Reply → Activity α}
    (rest : ∀ r, Within n (f r)) : Within (n + 1) (request q >>= f) := .halt rest

theorem within_calm_bind {n : Nat} {q : Ask} {f : q.Reply → Activity α} (calm : q.isHalt = false)
    (rest : ∀ r, Within n (f r)) : Within n (request q >>= f) := .calm calm rest

/-! ## The parts of the journal never stop -/

theorem within_start (r : InboundRecord) (p : Pipeline) (w : Option Workflow) :
    Within 0 (Journal.start r p w) := by
  refine within_calm_bind rfl fun created => ?_
  split
  · exact within_pure
  · exact within_calm_bind rfl fun _ => within_calm_bind rfl fun _ => within_pure

theorem within_retry (e : LogEntry) (message : String) : Within 0 (Journal.retry e message) := by
  unfold Journal.retry
  split
  · exact within_pure
  · exact within_calm_bind rfl fun _ => within_calm_bind rfl fun _ => within_pure

theorem within_finish (e : LogEntry) (end_ : Journal.Ending) (w : Option Workflow) :
    Within 0 (Journal.finish e end_ w) := by
  unfold Journal.finish
  split
  · exact within_pure
  · refine within_calm_bind rfl fun updated => ?_
    simp only
    split
    · exact within_calm_bind rfl fun _ => within_pure
    · exact within_calm_bind rfl fun _ => within_pure

theorem within_noteRetry (p : Progress) (message : String) : Within 0 (noteRetry p message) := by
  unfold noteRetry
  split
  · exact within_pure
  · refine (within_retry _ message).andThen fun noted => ?_
    split
    · exact within_pure
    · exact within_pure

theorem within_openEntry (logged : Bool) (r : InboundRecord) (p : Pipeline) (w : Option Workflow) :
    Within 0 (openEntry logged r p w) := by
  unfold openEntry
  split
  · exact (within_start r p w).andThen fun _ => within_pure
  · exact within_pure

theorem within_close (r : InboundRecord) (p : Pipeline) (w : Option Workflow) (e : Ended) :
    Within 0 (close r p w e) := by
  unfold close
  split
  · exact within_pure
  · exact (within_finish _ _ w).andThen fun _ => within_pure

/-! ## Steps -/

theorem within_perform (s : Step) (p : Progress) (action : Action) :
    Within 1 (perform s p action) := by
  cases action with
  | finish output holds => exact within_request_bind fun _ => within_pure
  | pause seconds output => exact within_request_bind fun _ => within_pure
  | send ref request sent =>
    refine within_request_bind fun answer => ?_
    cases answer with
    | none => exact within_pure
    | some answer => exact within_pure

theorem within_invoke (s : Step) (scope : Scope) (p : Progress) : Within 1 (invoke s scope p) := by
  unfold invoke
  split
  · exact within_request_bind fun _ => within_pure
  · unfold invokeInTime
    split
    · exact within_perform s p _
    · simp only
      split
      · exact within_request_bind fun _ => within_pure
      · exact within_pure

/-- An attempt stops once, and so does the wait before the next. -/
theorem within_attemptFrom (c : ExecutorConfig) (s : Step) (scope : Scope) (attempt : Nat)
    (p : Progress) (retries : Nat) :
    Within (1 + 2 * retries) (attemptFrom c s scope attempt p retries) := by
  induction retries generalizing attempt p with
  | zero => exact (within_invoke s scope p).bind fun _ => within_pure
  | succ retries ih =>
    refine (within_invoke s scope p).bind fun out => ?_
    simp only
    split
    · refine (within_noteRetry _ _).after fun noted => ?_
      split
      · exact within_pure
      · split
        · exact within_pure
        · rw [show 2 * (retries + 1) = 1 + 2 * retries + 1 by omega]
          exact within_calm_bind rfl fun _ => within_request_bind fun _ => ih _ _
    · exact within_pure

theorem within_advance (c : ExecutorConfig) (s : Step) (scope : Scope) (p : Progress) :
    Within (1 + 2 * retries s) (advance c s scope p) := by
  unfold advance
  split
  · exact (within_attemptFrom c s scope 1 p (retries s)).andThen fun _ => within_pure
  · exact within_pure

theorem within_loop {c : ExecutorConfig} {plan : List Step} {bound : Nat}
    (bounded : ∀ s ∈ plan, 1 + 2 * retries s ≤ bound) (scope : Scope) (p : Progress) (order : Int)
    (fuel : Nat) : Within (bound * fuel) (loop c plan scope p order fuel) := by
  induction fuel generalizing scope p order with
  | zero =>
    unfold loop
    split
    · exact within_pure
    · exact within_pure
  | succ fuel ih =>
    unfold loop
    split
    · exact within_pure
    · rename_i s hs
      have hmem : s ∈ plan := List.mem_reverse.mp (List.mem_of_find?_eq_some hs)
      rw [Nat.mul_succ, Nat.add_comm]
      refine ((within_advance c s scope p).mono (bounded s hmem)).bind fun next => ?_
      split
      · exact ih _ _ _
      · exact within_pure

theorem within_steps {c : ExecutorConfig} {plan : List Step} {bound : Nat}
    (bounded : ∀ s ∈ plan, 1 + 2 * retries s ≤ bound) (scope : Scope) (p : Progress) :
    Within (bound * c.maxTransitions.toNat) (steps c plan scope p) := by
  unfold steps
  split
  · exact within_pure
  · exact within_loop bounded _ _ _ _

/-- A run is done after stopping a bounded number of times. -/
theorem exists_within_run (c : ExecutorConfig) (logged : Bool) (p : Pipeline) (r : InboundRecord)
    (w : Option Workflow) : ∃ n, Within n (p.run c logged r w) := by
  obtain ⟨bound, hbound⟩ : ∃ bound, ∀ s ∈ p.plan, 1 + 2 * retries s ≤ bound :=
    ⟨(p.plan.map fun s => 1 + 2 * retries s).sum, fun s hs =>
      List.single_le_sum (fun _ _ => Nat.zero_le _) _ (List.mem_map_of_mem hs)⟩
  refine ⟨bound * c.maxTransitions.toNat, (within_openEntry logged r p w).after fun opened => ?_⟩
  split
  · exact within_pure
  · refine (within_steps hbound _ _).andThen fun ended => ?_
    refine (within_close r p w ended).andThen fun closed => ?_
    split
    · exact within_pure
    · exact within_pure

end Run
end Conveyor
