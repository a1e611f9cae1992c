import Conveyor.Proofs.Pipeline.Valid
import Mathlib.Data.List.InsertIdx
import Conveyor.Pipeline.Sequence

/-!
# Insertion of a step

A step that is put into a numbered sequence moves every step behind it up by one number, and the
branches to those steps with them. What a pipeline then goes through is its plan as it was, under
the new numbers, with the new step in its place (`plan_insertStep`); the destination step moves up like
any other.
-/

/-!
## Committed sequences

A sequence is committed when its steps are numbered from one on and its conditions lead to steps of
it. Numbering makes any steps with old numbers into a committed sequence, whatever they were before:
a target is either the new number of a step that had this number, or gone.
-/

namespace Conveyor

/-- The step at a place of a numbered sequence, with branches to the new numbers of the steps that
they named. -/
def Step.placed (number? : Int → Option Int) (q : Nat) (s : Step) : Step :=
  { s with
    order := (q : Int) + 1
    branch := if s.kind = .condition then
        { s.branch with
          onTrue := s.branch.onTrue.bind number?
          onFalse := s.branch.onFalse.bind number? }
      else s.branch }

/-- A step that is numbered as it is already, and whose targets keep their numbers, is the same
afterwards. -/
theorem Step.placed_eq_self {number? : Int → Option Int} {q : Nat} {s : Step}
    (order : s.order = (q : Int) + 1)
    (targets : s.kind = .condition → ∀ n, s.branch.onTrue = some n ∨ s.branch.onFalse = some n →
      number? n = some n) : s.placed number? q = s := by
  have hbind : ∀ target : Option Int, (∀ n, target = some n → number? n = some n) →
      target.bind number? = target := by
    intro target h
    cases target with
    | none => rfl
    | some n => exact h n rfl
  obtain ⟨_, _, _, _, _, _, _, _, _, _, _, _, _, _, branch, _⟩ := s
  simp only [placed, ← order]
  split
  · rename_i hkind
    rw [hbind _ fun n hn => targets hkind n (.inl hn),
      hbind _ fun n hn => targets hkind n (.inr hn)]
  · rfl

/-- Numbering twice is numbering once, by both numbers one after the other. -/
theorem Step.placed_placed (number? number?' : Int → Option Int) (q q' : Nat) (s : Step) :
    (s.placed number? q).placed number?' q' =
      s.placed (fun n => (number? n).bind number?') q' := by
  unfold placed
  by_cases hkind : s.kind = .condition
  · simp [hkind, Option.bind_assoc]
  · simp [hkind]

namespace StepSequence

variable {s : StepSequence} {edited : List Numbered}

/-- The steps are numbered from one on, and the conditions among them lead to steps. -/
structure IsCommitted (s : StepSequence) : Prop where
  numbered : s.isContiguous = true
  targets : ∀ step ∈ s.steps, step.kind = .condition → ∀ n,
    step.branch.onTrue = some n ∨ step.branch.onFalse = some n → 1 ≤ n ∧ n ≤ s.length

theorem length_numbered (s : StepSequence) : s.numbered.length = s.steps.length :=
  List.length_map _

/-- In a sequence that is numbered from one on, the number of a step says where it stands. -/
theorem order_of_getElem? (numbered : s.isContiguous = true) {k : Nat} {step : Step}
    (h : s.steps[k]? = some step) : step.order = (k : Int) + 1 := by
  have horders := congrArg (·[k]?) (of_decide_eq_true numbered)
  obtain ⟨hlt, rfl⟩ := List.getElem?_eq_some_iff.mp h
  simpa [orders, length, hlt] using horders

theorem length_commit (edited : List Numbered) : (commit edited).length = edited.length := by
  simp [commit, length]

/-- A step stands where it stood before it was numbered. -/
theorem getElem?_commit (edited : List Numbered) (q : Nat) :
    (commit edited).steps[q]? = edited[q]?.map fun x => x.1.placed (renumbered? edited) q := by
  unfold commit
  rw [List.getElem?_map, List.getElem?_zipIdx, Option.map_map]
  simp only [Nat.zero_add]
  rfl

/-- A new number is the place of a step that had the old one. -/
theorem exists_of_renumbered? {target m : Int} (h : renumbered? edited target = some m) :
    ∃ (q : Nat) (step : Step), edited[q]? = some (step, some target) ∧ m = (q : Int) + 1 := by
  obtain ⟨⟨⟨step, old⟩, q⟩, hfind, hm⟩ := Option.map_eq_some_iff.mp h
  have hold := List.find?_some hfind
  obtain rfl : old = some target := of_decide_eq_true hold
  have hmem := List.mem_reverse.mp (List.mem_of_find?_eq_some hfind)
  exact ⟨q, step, List.mem_zipIdx_iff_getElem?.mp hmem, hm.symm⟩

/-- A number that no step had has no new number. -/
theorem renumbered?_eq_none_iff {target : Int} : renumbered? edited target = none ↔
    ∀ (q : Nat) (step : Step), edited[q]? ≠ some (step, some target) := by
  constructor
  · intro h q step hq
    have hmem : ((step, some target), q) ∈ edited.zipIdx.reverse :=
      List.mem_reverse.mpr (List.mem_zipIdx_iff_getElem?.mpr hq)
    exact absurd (decide_eq_true rfl)
      (List.find?_eq_none.mp (Option.map_eq_none_iff.mp h) _ hmem)
  · intro h
    cases hm : renumbered? edited target with
    | none => rfl
    | some m =>
      obtain ⟨q, step, hq, -⟩ := exists_of_renumbered? hm
      exact absurd hq (h q step)

/-- If every step with an old number stands where `number?` says, then that is its new number. -/
theorem renumbered?_eq {number? : Int → Option Int}
    (sound : ∀ (q : Nat) step target, edited[q]? = some (step, some target) →
      number? target = some ((q : Int) + 1))
    (complete : ∀ target m, number? target = some m →
      ∃ (q : Nat) (step : Step), edited[q]? = some (step, some target)) :
    renumbered? edited = number? := by
  funext target
  cases hm : renumbered? edited target with
  | none =>
    cases hn : number? target with
    | none => rfl
    | some m =>
      obtain ⟨q, step, hq⟩ := complete target m hn
      exact absurd hq (renumbered?_eq_none_iff.mp hm q step)
  | some m =>
    obtain ⟨q, step, hq, rfl⟩ := exists_of_renumbered? hm
    exact (sound q step target hq).symm

/-- Numbering leaves the steps numbered from one on. -/
theorem isContiguous_commit (edited : List Numbered) : (commit edited).isContiguous = true := by
  refine decide_eq_true (List.ext_getElem ?_ fun k hk hk' => ?_)
  · simp [commit, orders, length]
  · simp [commit, orders, commitStep]

/-- Whatever is numbered is committed. -/
theorem isCommitted_commit (edited : List Numbered) : (commit edited).IsCommitted where
  numbered := isContiguous_commit edited
  targets := by
    intro step hstep hkind n hn
    obtain ⟨q, hq⟩ := List.mem_iff_getElem?.mp hstep
    rw [getElem?_commit] at hq
    obtain ⟨x, -, rfl⟩ := Option.map_eq_some_iff.mp hq
    have hkind' : x.1.kind = .condition := hkind
    have hnew : ∃ target, renumbered? edited target = some n := by
      simp only [Step.placed, hkind', if_true, Option.bind_eq_some_iff] at hn
      rcases hn with ⟨target, -, h⟩ | ⟨target, -, h⟩
      · exact ⟨target, h⟩
      · exact ⟨target, h⟩
    obtain ⟨target, htarget⟩ := hnew
    obtain ⟨k, _, hk, rfl⟩ := exists_of_renumbered? htarget
    have hlt := (List.getElem?_eq_some_iff.mp hk).1
    rw [length_commit]
    omega

end StepSequence

/-! ## Insertion -/

/-- The number that a step gets when a step is inserted behind the first `i`. -/
def shifted (i : Nat) (order : Int) : Int := if order ≤ i then order else order + 1

theorem shifted_ne (i : Nat) (order : Int) : shifted i order ≠ i + 1 := by
  unfold shifted
  split <;> omega

theorem shifted_inj {i : Nat} {order order' : Int} : shifted i order = shifted i order' ↔
    order = order' := by
  unfold shifted
  split <;> split <;> omega

/-- The next number is the number of the next step, except before the new step. -/
theorem shifted_add_one {i : Nat} {order : Int} (h : order ≠ i) :
    shifted i order + 1 = shifted i (order + 1) := by
  unfold shifted
  split <;> split <;> omega

/-- The step under another number, with its branches to the same steps under theirs. -/
def Step.renumbered (number : Int → Int) (s : Step) : Step :=
  { s with
    order := number s.order
    branch := if s.kind = .condition then
        { s.branch with
          onTrue := s.branch.onTrue.map number
          onFalse := s.branch.onFalse.map number }
      else s.branch }

namespace StepSequence

variable {s : StepSequence} {i : Nat}

/-- The steps and their old numbers once a new step is among them. -/
def withNew (s : StepSequence) (i : Nat) (new : Step) : List Numbered :=
  s.numbered.insertIdx i (new, none)

theorem getElem?_withNew (hi : i ≤ s.steps.length) (new : Step) (k : Nat) :
    (s.withNew i new)[k]? =
      if k < i then s.numbered[k]? else if k = i then some (new, none) else s.numbered[k - 1]? := by
  rw [withNew, List.getElem?_insertIdx, length_numbered]
  split
  · rfl
  · split
    · rename_i heq
      rw [if_pos (by omega)]
    · rfl

/-- A step with an old number has moved to the number that it gets by the insertion. -/
theorem shifted_of_getElem?_withNew (numbered : s.isContiguous = true) (hi : i ≤ s.steps.length)
    {new step : Step} {k : Nat} {old : Int} (h : (s.withNew i new)[k]? = some (step, some old)) :
    (k : Int) + 1 = shifted i old := by
  have hplace : ∀ j : Nat, s.numbered[j]? = some (step, some old) → old = (j : Int) + 1 := by
    intro j hj
    obtain ⟨step', hstep, heq⟩ := Option.map_eq_some_iff.mp (List.getElem?_map.symm.trans hj)
    cases heq
    exact order_of_getElem? numbered hstep
  rw [getElem?_withNew hi] at h
  unfold shifted
  split at h
  · have := hplace k h
    rw [if_pos (by omega)]
    omega
  · split at h
    · cases h
    · have := hplace (k - 1) h
      rw [if_neg (by omega)]
      omega

/-- Every step is still there under its old number. -/
theorem exists_mem_withNew (numbered : s.isContiguous = true) (hi : i ≤ s.steps.length)
    (new : Step) {old : Int} (h : 1 ≤ old ∧ old ≤ s.steps.length) :
    ∃ (k : Nat) (step : Step), (s.withNew i new)[k]? = some (step, some old) := by
  obtain ⟨j, rfl⟩ : ∃ j : Nat, old = (j : Int) + 1 := ⟨(old - 1).toNat, by omega⟩
  have hlt : j < s.steps.length := by omega
  have hstep := List.getElem?_eq_getElem hlt
  have hold : s.numbered[j]? = some (s.steps[j], some ((j : Int) + 1)) := by
    rw [StepSequence.numbered, List.getElem?_map, hstep, Option.map_some,
      order_of_getElem? numbered hstep]
  rcases Nat.lt_or_ge j i with hbefore | hbehind
  · refine ⟨j, s.steps[j], ?_⟩
    rw [getElem?_withNew hi, if_pos hbefore, hold]
  · refine ⟨j + 1, s.steps[j], ?_⟩
    rw [getElem?_withNew hi, if_neg (by omega), if_neg (by omega), Nat.add_sub_cancel, hold]

/-- A branch to a step of the sequence leads to the same step afterwards. -/
theorem renumbered?_withNew (numbered : s.isContiguous = true) (hi : i ≤ s.steps.length)
    (new : Step) {target : Int} (h : 1 ≤ target ∧ target ≤ s.steps.length) :
    renumbered? (s.withNew i new) target = some (shifted i target) := by
  obtain ⟨k, step, hk⟩ := exists_mem_withNew numbered hi new h
  cases hm : renumbered? (s.withNew i new) target with
  | none => exact absurd hk (renumbered?_eq_none_iff.mp hm k step)
  | some m =>
    -- whatever was found stands where the step of that number has moved
    obtain ⟨q, found, hq, rfl⟩ := exists_of_renumbered? hm
    exact congrArg some (shifted_of_getElem?_withNew numbered hi hq)

/-- A step that keeps its number or moves up by one, with its branches renumbered. -/
theorem commitStep_withNew (numbered : s.isContiguous = true) (hi : i ≤ s.steps.length)
    (new : Step) {step : Step} {k : Nat} (place : (k : Int) + 1 = shifted i step.order)
    (targets : step.kind = .condition → ∀ n,
      step.branch.onTrue = some n ∨ step.branch.onFalse = some n → 1 ≤ n ∧ n ≤ s.steps.length) :
    commitStep (s.withNew i new) step k = step.renumbered (shifted i) := by
  have hbranch : ∀ target : Option Int,
      (∀ n, target = some n → 1 ≤ n ∧ n ≤ s.steps.length) →
        target.bind (renumbered? (s.withNew i new)) = target.map (shifted i) := by
    rintro (_ | n) hn
    · rfl
    · exact renumbered?_withNew numbered hi new (hn n rfl)
  unfold commitStep Step.renumbered
  rw [place]
  split
  · rename_i hkind
    rw [hbranch _ fun n hn => targets hkind n (.inl hn),
      hbranch _ fun n hn => targets hkind n (.inr hn)]
  · rfl

/-- The steps after an insertion: the old ones under their new numbers, and the new one. -/
theorem steps_insert (numbered : s.isContiguous = true) (hi : i ≤ s.steps.length) (new : Step)
    (targets : ∀ step ∈ s.steps, step.kind = .condition → ∀ n,
      step.branch.onTrue = some n ∨ step.branch.onFalse = some n → 1 ≤ n ∧ n ≤ s.steps.length) :
    (s.insert i new).steps = (s.steps.map (Step.renumbered (shifted i))).insertIdx i
      (commitStep (s.withNew i new) new i) := by
  have hgap : Position.gap s.length i = i := by
    unfold Position.gap Position.fromStart length
    split <;> omega
  have hcommit : (s.insert i new).steps =
      (s.withNew i new).zipIdx.map fun x => commitStep (s.withNew i new) x.1.1 x.2 := by
    unfold insert
    rw [hgap]
    rfl
  have hold : ∀ j k : Nat, (k : Int) + 1 = shifted i ((j : Int) + 1) →
      (s.numbered[j]?.map fun x => commitStep (s.withNew i new) x.1 k) =
        (s.steps.map (Step.renumbered (shifted i)))[j]? := by
    intro j k hplace
    rw [StepSequence.numbered, List.getElem?_map, List.getElem?_map, Option.map_map]
    cases hj : s.steps[j]? with
    | none => rfl
    | some step =>
      rw [Option.map_some, Option.map_some]
      refine congrArg some (commitStep_withNew numbered hi new ?_
        (targets step (List.mem_of_getElem? hj)))
      rw [order_of_getElem? numbered hj, hplace]
  rw [hcommit]
  refine List.ext_getElem? fun k => ?_
  rw [List.getElem?_map, List.getElem?_zipIdx, Option.map_map, getElem?_withNew hi,
    List.getElem?_insertIdx, List.length_map]
  simp only [Nat.zero_add]
  split
  · rename_i hlt
    refine hold k k ?_
    unfold shifted
    rw [if_pos (by omega)]
  · split
    · rename_i heq
      subst heq
      rw [if_pos hi]
      rfl
    · refine hold (k - 1) k ?_
      unfold shifted
      rw [if_neg (by omega)]
      omega

end StepSequence

theorem insertIdx_eq_take_cons_drop {α : Type} (a : α) {as : List α} {i : Nat}
    (h : i ≤ as.length) : as.insertIdx i a = as.take i ++ a :: as.drop i := by
  induction as generalizing i with
  | nil =>
    obtain rfl : i = 0 := Nat.le_zero.mp h
    rfl
  | cons b as ih =>
    cases i with
    | zero => rfl
    | succ i =>
      rw [List.insertIdx_succ_cons, ih (Nat.le_of_succ_le_succ h)]
      rfl

namespace Pipeline

open Validation

variable {p : Pipeline} {i : Nat}

/-- The pipeline with a step inserted behind its first `i`. -/
def insertStep (p : Pipeline) (i : Nat) (new : Step) : Pipeline :=
  { p with steps := ((StepSequence.mk p.steps).insert i new).steps }

/-- The new step under its number in the pipeline. -/
def inserted (p : Pipeline) (i : Nat) (new : Step) : Step :=
  StepSequence.commitStep ((StepSequence.mk p.steps).withNew i new) new i

/-- Steps that stand where their numbers say are in order. -/
theorem sortedSteps_of_isContiguous (numbered : (StepSequence.mk p.steps).isContiguous = true) :
    p.sortedSteps = p.steps := by
  refine sortedSteps_eq (List.pairwise_iff_getElem.mpr fun j k hj hk hlt => ?_)
  rw [StepSequence.order_of_getElem? numbered (List.getElem?_eq_getElem hj),
    StepSequence.order_of_getElem? numbered (List.getElem?_eq_getElem hk)]
  omega

/-- The destination step has moved up like the steps behind the new one. -/
theorem destinationStep?_renumbered (p : Pipeline) {number : Int → Int} (order : Int) :
    p.destinationStep? (number order) =
      (p.destinationStep? order).map (Step.renumbered number) := by
  unfold destinationStep?
  rw [Option.map_map]
  cases p.destination? with
  | none => rfl
  | some ref =>
    obtain ⟨kind, id⟩ := ref
    cases kind with
    | rest => rfl
    | sap => rfl
    | database => rfl

/-- What a valid pipeline goes through after an insertion: the plan as it was, under the new
numbers, and the new step in its place. -/
theorem plan_insertStep {place : Place} (valid : pipelineIssues place p = .ok [])
    (numbered : (StepSequence.mk p.steps).isContiguous = true) (hi : i ≤ p.steps.length)
    (new : Step) :
    (p.insertStep i new).plan = (p.plan.take i).map (Step.renumbered (shifted i)) ++
      p.inserted i new :: (p.plan.drop i).map (Step.renumbered (shifted i)) := by
  have hvalid := pipelineIssues_eq_nil_iff_isValid.mp valid
  have hsorted := sortedSteps_of_isContiguous numbered
  have htargets : ∀ step ∈ p.steps, step.kind = .condition → ∀ n,
      step.branch.onTrue = some n ∨ step.branch.onFalse = some n →
        1 ≤ n ∧ n ≤ p.steps.length := by
    intro step hstep hkind n hn
    have hsettings := (hvalid.steps step (hsorted ▸ hstep)).settings
    rw [ValidSettings, hkind, hsorted] at hsettings
    exact hn.elim (hsettings.onTrue n) (hsettings.onFalse n)
  have hsteps := StepSequence.steps_insert numbered hi new htargets
  have hsorted' : (p.insertStep i new).sortedSteps = (p.insertStep i new).steps :=
    sortedSteps_of_isContiguous (StepSequence.isContiguous_commit _)
  have hlength : (p.insertStep i new).steps.length = p.steps.length + 1 := by
    rw [insertStep, hsteps, List.length_insertIdx, List.length_map, if_pos hi]
  have hfinal : (p.insertStep i new).destinationStep? ((p.steps.length + 1 : Nat) + 1) =
      (p.destinationStep? (p.steps.length + 1)).map (Step.renumbered (shifted i)) := by
    rw [← destinationStep?_renumbered, shifted, if_neg (by omega)]
    rfl
  have hplan : p.plan = p.steps ++ (p.destinationStep? (p.steps.length + 1)).toList := by
    rw [plan, hsorted]
  rw [plan, hsorted', hlength, hfinal, hplan, List.take_append_of_le_length hi,
    List.drop_append_of_le_length hi, List.map_append, ← List.cons_append, ← List.append_assoc,
    Option.toList_map]
  refine congrArg (· ++ _) ?_
  rw [insertStep, hsteps, insertIdx_eq_take_cons_drop _ (by rwa [List.length_map]),
    List.map_take, List.map_drop]
  rfl

end Pipeline
end Conveyor
