import Mathlib.Algebra.BigOperators.Group.Multiset.Basic
import Conveyor.Worker.Scene

/-!
# What is pending on a scene

The heap orders alarms and never loses one: setting an alarm adds it, calling a number off takes
away the alarms of that number, and an alarm that goes off becomes a turn. So the turns that have
been called for together with the causes of the alarms that have not been called off are changed by
what the worker does, and not by the passing of time.
-/

namespace Conveyor.Worker

variable {α σ : Type}

namespace Alarms

/-! ## The order of the heap -/

theorem swapIfInBounds_perm (h : Array (Alarm α)) (i j : Nat) : (h.swapIfInBounds i j).Perm h := by
  unfold Array.swapIfInBounds
  split
  · split
    · exact Array.swap_perm _ _
    · exact .refl h
  · exact .refl h

theorem rise_perm (h : Array (Alarm α)) (top fuel i : Nat) : (rise h top fuel i).Perm h := by
  induction fuel generalizing h i with
  | zero => exact .refl h
  | succ fuel ih =>
    unfold rise
    split
    · exact .refl h
    · split
      · split
        · exact (ih _ _).trans (swapIfInBounds_perm h i (above i))
        · exact .refl h
      · exact .refl h

theorem sink_perm (h : Array (Alarm α)) (fuel i : Nat) : (sink h fuel i).1.Perm h := by
  induction fuel generalizing h i with
  | zero => exact .refl h
  | succ fuel ih =>
    unfold sink
    split
    · exact (ih _ _).trans (swapIfInBounds_perm h i _)
    · exact .refl h

theorem settle_perm (h : Array (Alarm α)) (i : Nat) : (settle h i).Perm h :=
  (rise_perm _ _ _ _).trans (sink_perm h h.size i)

theorem heapOf_perm (h : Array (Alarm α)) : (heapOf h).Perm h := by
  have hfold : ∀ (is : List Nat) (h : Array (Alarm α)), (is.foldl settle h).Perm h := by
    intro is
    induction is with
    | nil => exact fun h => .refl h
    | cons i is ih => exact fun h => (ih _).trans (settle_perm h i)
  exact hfold _ h

/-! ## Alarms that have not been called off -/

/-- The alarms that have not been called off. -/
def active (a : Alarms α) : Multiset (Alarm α) :=
  (a.heap.toList.filter fun x => !x.isCalledOff : List (Alarm α))

/-- What is to happen when the alarms go off. -/
def causes (a : Alarms α) : Multiset α := a.active.map (·.cause)

theorem active_of_perm {a b : Alarms α} (h : a.heap.Perm b.heap) : a.active = b.active :=
  Multiset.coe_eq_coe.mpr (h.toList.filter _)

theorem active_insert (wake : Binary64) (cause : α) (a : Alarms α) :
    (a.insert wake cause).active = { wake, number := a.count, cause } ::ₘ a.active := by
  have hperm : (a.insert wake cause).heap.Perm (a.heap.push { wake, number := a.count, cause }) :=
    rise_perm _ _ _ _
  have hactive : (a.insert wake cause).active =
      (⟨a.heap.push { wake, number := a.count, cause }, a.count⟩ : Alarms α).active :=
    active_of_perm hperm
  rw [hactive, active, active, Array.toList_push, List.filter_append, ← Multiset.coe_add, add_comm]
  rfl

theorem active_callOff (number : Nat) (a : Alarms α) :
    (a.callOff number).active = a.active.filter (·.number ≠ number) := by
  rw [active, active, Multiset.filter_coe, Multiset.coe_eq_coe, List.filter_filter]
  refine List.Perm.of_eq ?_
  simp only [callOff, Array.toList_map]
  induction a.heap.toList with
  | nil => rfl
  | cons x xs ih =>
    rw [List.map_cons, List.filter_cons, List.filter_cons, ih]
    by_cases h : x.number = number <;> simp [h]

theorem first?_eq_some_iff {a : Alarms α} {x : Alarm α} :
    a.first? = some x ↔ ∃ rest, a.heap.toList = x :: rest := by
  rw [first?, ← Array.getElem?_toList]
  cases a.heap.toList with
  | nil => simp
  | cons y ys => simp

@[simp] theorem count_dropFirst (a : Alarms α) : a.dropFirst.count = a.count := by
  unfold dropFirst
  split <;> rfl

/-- The alarm at the top is taken away, and no other. -/
theorem dropFirst_perm {a : Alarms α} {x : Alarm α} {rest : List (Alarm α)}
    (h : a.heap.toList = x :: rest) : a.dropFirst.heap.toList.Perm rest := by
  unfold dropFirst
  cases hlast : a.heap.back? with
  | none =>
    rw [Array.back?_eq_none_iff] at hlast
    rw [hlast] at h
    cases h
  | some last =>
    obtain ⟨ys, hys⟩ := Array.back?_eq_some_iff.mp hlast
    refine (settle_perm _ 0).toList.trans ?_
    rw [hys, Array.toList_push] at h
    rw [hys, Array.pop_push, Array.toList_setIfInBounds]
    cases hlist : ys.toList with
    | nil =>
      rw [hlist] at h
      obtain ⟨-, rfl⟩ := List.cons.inj h
      exact .refl _
    | cons y ys' =>
      rw [hlist] at h
      obtain ⟨-, rfl⟩ := List.cons.inj h
      exact (List.perm_append_singleton last ys').symm

theorem size_dropFirst {a : Alarms α} {x : Alarm α} (h : a.first? = some x) :
    a.dropFirst.heap.size + 1 = a.heap.size := by
  obtain ⟨rest, hrest⟩ := first?_eq_some_iff.mp h
  rw [← Array.length_toList, ← Array.length_toList, (dropFirst_perm hrest).length_eq, hrest]
  rfl

theorem active_eq_dropFirst {a : Alarms α} {x : Alarm α} (h : a.first? = some x) :
    a.active = if x.isCalledOff then a.dropFirst.active else x ::ₘ a.dropFirst.active := by
  obtain ⟨rest, hrest⟩ := first?_eq_some_iff.mp h
  have hdrop : a.dropFirst.active = (rest.filter fun x => !x.isCalledOff : List (Alarm α)) :=
    Multiset.coe_eq_coe.mpr ((dropFirst_perm hrest).filter _)
  rw [hdrop, active, hrest, List.filter_cons]
  cases x.isCalledOff <;> rfl

theorem active_clearTop (fuel : Nat) (a : Alarms α) :
    (clearTop fuel a).active = a.active ∧ (clearTop fuel a).count = a.count := by
  induction fuel generalizing a with
  | zero => exact ⟨rfl, rfl⟩
  | succ fuel ih =>
    unfold clearTop
    cases hfirst : a.first? with
    | none => exact ⟨rfl, rfl⟩
    | some x =>
      simp only
      cases hoff : x.isCalledOff with
      | false => exact ⟨rfl, rfl⟩
      | true =>
        rw [if_pos rfl, (ih _).1, (ih _).2, active_eq_dropFirst hfirst, hoff, if_pos rfl]
        exact ⟨rfl, count_dropFirst a⟩

/-- Clearing takes away alarms that are called off only. -/
theorem active_cleared (a : Alarms α) :
    a.cleared.active = a.active ∧ a.cleared.count = a.count := by
  unfold cleared
  split
  · refine ⟨?_, rfl⟩
    refine Multiset.coe_eq_coe.mpr (((heapOf_perm _).toList.filter _).trans (.of_eq ?_))
    rw [Array.toList_filter, List.filter_filter]
    simp
  · exact active_clearTop _ a

/-- After clearing, the alarm at the top has not been called off. -/
theorem first?_cleared {a : Alarms α} {x : Alarm α} (h : a.cleared.first? = some x) :
    x.isCalledOff = false := by
  have hclear : ∀ (fuel : Nat) (a : Alarms α), a.heap.size ≤ fuel →
      (clearTop fuel a).first? = some x → x.isCalledOff = false := by
    intro fuel
    induction fuel with
    | zero =>
      intro a hsize hfirst
      have hempty : a.heap = #[] := Array.size_eq_zero_iff.mp (Nat.le_zero.mp hsize)
      rw [clearTop, first?, hempty] at hfirst
      cases hfirst
    | succ fuel ih =>
      intro a hsize hfirst
      unfold clearTop at hfirst
      cases htop : a.first? with
      | none =>
        rw [htop] at hfirst
        simp only [htop] at hfirst
        cases hfirst
      | some y =>
        rw [htop] at hfirst
        simp only at hfirst
        cases hoff : y.isCalledOff with
        | false =>
          rw [hoff, if_neg Bool.false_ne_true, htop] at hfirst
          obtain rfl := Option.some.inj hfirst
          exact hoff
        | true =>
          rw [hoff, if_pos rfl] at hfirst
          have hsmaller := size_dropFirst htop
          exact ih _ (by omega) hfirst
  unfold cleared at h
  split at h
  · obtain ⟨rest, hrest⟩ := first?_eq_some_iff.mp h
    have hmem : x ∈ (heapOf (a.heap.filter fun x => !x.isCalledOff)).toList :=
      hrest ▸ List.mem_cons_self
    have hmem := (heapOf_perm _).toList.mem_iff.mp hmem
    simpa using (Array.mem_filter.mp (Array.mem_toList_iff.mp hmem)).2
  · exact hclear _ a (Nat.le_refl _) h

/-- An alarm that goes off is no longer set; the others stay. -/
theorem ringFrom_spec (fuel : Nat) (endOfMoment : Binary64) (a : Alarms α) :
    ((ringFrom fuel endOfMoment a).1 : Multiset α) + (ringFrom fuel endOfMoment a).2.causes = a.causes ∧
      (ringFrom fuel endOfMoment a).2.active ≤ a.active ∧
      (ringFrom fuel endOfMoment a).2.count = a.count := by
  induction fuel generalizing a with
  | zero => exact ⟨zero_add _, le_refl _, rfl⟩
  | succ fuel ih =>
    unfold ringFrom
    cases hfirst : a.first? with
    | none => exact ⟨zero_add _, le_refl _, rfl⟩
    | some x =>
      simp only
      split
      · exact ⟨zero_add _, le_refl _, rfl⟩
      · obtain ⟨hcauses, hactive, hcount⟩ := ih a.dropFirst
        have hsplit := active_eq_dropFirst hfirst
        refine ⟨?_, ?_, hcount.trans (count_dropFirst a)⟩
        · unfold causes at hcauses ⊢
          rw [hsplit]
          cases x.isCalledOff with
          | true => exact hcauses
          | false =>
            simp only [Bool.false_eq_true, if_false]
            rw [← Multiset.cons_coe, Multiset.cons_add, hcauses, Multiset.map_cons]
        · rw [hsplit]
          refine hactive.trans ?_
          split
          · exact le_refl _
          · exact Multiset.le_cons_self _ _

/-- The alarm at the top goes off if it is set for a time before the end of the moment. -/
theorem ring_ne_nil {endOfMoment : Binary64} {a : Alarms α} {x : Alarm α} (h : a.first? = some x)
    (on : x.isCalledOff = false) (due : endOfMoment.le x.wake = false) :
    (a.ring endOfMoment).1 ≠ [] := by
  unfold ring
  rw [← size_dropFirst h, ringFrom, h]
  simp [due, on]

end Alarms

namespace Scene

/-- The turns that have been called for and those that alarms will call for. -/
def pending (s : Scene σ) : Multiset Turn := (s.turns : Multiset Turn) + s.alarms.causes

@[simp] theorem pending_callFor (t : Turn) (s : Scene σ) : (s.callFor t).pending = t ::ₘ s.pending := by
  show ((s.turns ++ [t] : List Turn) : Multiset Turn) + s.alarms.causes = _
  rw [← Multiset.coe_add, Multiset.coe_singleton, add_right_comm, add_comm, Multiset.singleton_add]
  rfl

@[simp] theorem pending_setAlarm (seconds : Binary64) (t : Turn) (s : Scene σ) :
    (s.setAlarm seconds t).2.pending = t ::ₘ s.pending := by
  unfold pending setAlarm Alarms.causes
  rw [Alarms.active_insert, Multiset.map_cons, Multiset.add_cons]

/-- Calling a number off takes away what the alarms of that number are for. -/
theorem pending_callOff (number : Nat) (s : Scene σ) :
    (s.callOff number).pending + (s.alarms.active.filter (·.number = number)).map (·.cause) =
      s.pending := by
  unfold pending callOff Alarms.causes
  rw [Alarms.active_callOff, add_assoc, ← Multiset.map_add]
  congr 2
  rw [add_comm]
  exact Multiset.filter_add_not _ _

@[simp] theorem alarms_awaitAlarm (s : Scene σ) : s.awaitAlarm.alarms = s.alarms := by
  unfold awaitAlarm
  split
  · split <;> rfl
  · rfl

@[simp] theorem turns_awaitAlarm (s : Scene σ) : s.awaitAlarm.turns = s.turns := by
  unfold awaitAlarm
  split
  · split <;> rfl
  · rfl

/-- The passing of time changes what the timer shows, and turns alarms into turns. -/
theorem wake_spec (s : Scene σ) :
    s.wake.pending = s.pending ∧ s.wake.alarms.active ≤ s.alarms.active ∧
      s.wake.alarms.count = s.alarms.count ∧
      ∃ timer, s.wake.world = { s.world with timer } := by
  have hcleared := Alarms.active_cleared s.alarms
  have hring : ∀ r : Scene σ, r.alarms = s.alarms.cleared → r.turns = s.turns →
      r.ring.pending = s.pending ∧ r.ring.alarms.active ≤ s.alarms.active ∧
        r.ring.alarms.count = s.alarms.count ∧ r.ring.world = r.world := by
    intro r halarms hturns
    obtain ⟨hcauses, hactive, hcount⟩ :=
      Alarms.ringFrom_spec r.alarms.heap.size (r.world.timer.add World.moment) r.alarms
    refine ⟨?_, ?_, ?_, rfl⟩
    · show ((r.turns ++ _ : List Turn) : Multiset Turn) + Alarms.causes (Alarms.ringFrom _ _ _).2 = _
      rw [← Multiset.coe_add, add_assoc, hcauses, hturns, halarms, Alarms.causes, hcleared.1]
      rfl
    · exact hactive.trans (by rw [halarms, hcleared.1])
    · exact hcount.trans (by rw [halarms, hcleared.2])
  unfold wake
  simp only
  split
  · obtain ⟨hpending, hactive, hcount, hworld⟩ :=
      hring ({ s with alarms := s.alarms.cleared } : Scene σ).awaitAlarm (by simp) (by simp)
    refine ⟨hpending, hactive, hcount, ?_⟩
    rw [hworld]
    unfold awaitAlarm
    split
    · split
      · exact ⟨_, rfl⟩
      · exact ⟨_, rfl⟩
    · exact ⟨_, rfl⟩
  · obtain ⟨hpending, hactive, hcount, hworld⟩ :=
      hring { s with alarms := s.alarms.cleared } rfl rfl
    exact ⟨hpending, hactive, hcount, _, hworld⟩

/-! ## Changes of a scene -/

/-- Alarms are numbered in the order in which they are set. -/
def Numbered (s : Scene σ) : Prop := ∀ x ∈ s.alarms.active, x.number < s.alarms.count

/-- A number is that of an alarm for one purpose, now and for ever. -/
structure Reserved (s : Scene σ) (number : Nat) (t : Turn) : Prop where
  lt : number < s.alarms.count
  cause : ∀ x ∈ s.alarms.active, x.number = number → x.cause = t

/-- From one scene to another some pending turns are gone and some are new; alarms that are new have
new numbers. -/
structure Changes (s s' : Scene σ) (gone new : Multiset Turn) : Prop where
  pending : s'.pending + gone = s.pending + new
  count : s.alarms.count ≤ s'.alarms.count
  active : ∀ x ∈ s'.alarms.active,
    x ∈ s.alarms.active ∨ s.alarms.count ≤ x.number ∧ x.number < s'.alarms.count

variable {s s' s'' : Scene σ} {gone gone' new new' : Multiset Turn} {number : Nat} {t : Turn}

theorem Changes.world (s : Scene σ) (w : World σ) : s.Changes { s with world := w } 0 0 :=
  ⟨rfl, Nat.le_refl _, fun _ h => .inl h⟩

theorem Changes.refl (s : Scene σ) : s.Changes s 0 0 := .world s s.world

theorem Changes.trans (h : s.Changes s' gone new) (h' : s'.Changes s'' gone' new') :
    s.Changes s'' (gone + gone') (new + new') where
  pending := by
    rw [add_comm gone, ← add_assoc, h'.pending, add_right_comm, h.pending, add_assoc]
  count := h.count.trans h'.count
  active x hx := by
    rcases h'.active x hx with hx | ⟨hle, hlt⟩
    · rcases h.active x hx with hx | ⟨hle, hlt⟩
      · exact .inl hx
      · exact .inr ⟨hle, hlt.trans_le h'.count⟩
    · exact .inr ⟨h.count.trans hle, hlt⟩

theorem changes_callFor (s : Scene σ) (t : Turn) : s.Changes (s.callFor t) 0 {t} where
  pending := by rw [pending_callFor, add_zero, ← Multiset.singleton_add, add_comm]
  count := Nat.le_refl _
  active _ h := .inl h

theorem changes_setAlarm (s : Scene σ) (seconds : Binary64) (t : Turn) :
    s.Changes (s.setAlarm seconds t).2 0 {t} where
  pending := by rw [pending_setAlarm, add_zero, ← Multiset.singleton_add, add_comm]
  count := Nat.le_succ _
  active x hx := by
    rw [setAlarm, Alarms.active_insert, Multiset.mem_cons] at hx
    rcases hx with rfl | hx
    · exact .inr ⟨Nat.le_refl _, Nat.lt_succ_self _⟩
    · exact .inl hx

/-- A number that is reserved is called off with its purpose only. -/
theorem changes_callOff (h : s.Reserved number t) :
    ∃ gone, s.Changes (s.callOff number) gone 0 ∧ ∀ u ∈ gone, u = t := by
  refine ⟨(s.alarms.active.filter (·.number = number)).map (·.cause),
    ⟨by rw [pending_callOff, add_zero], Nat.le_refl _, fun x hx => .inl ?_⟩, fun u hu => ?_⟩
  · rw [callOff, Alarms.active_callOff] at hx
    exact Multiset.mem_of_mem_filter hx
  · obtain ⟨x, hx, rfl⟩ := Multiset.mem_map.mp hu
    obtain ⟨hx, hnumber⟩ := Multiset.mem_filter.mp hx
    exact h.cause x hx hnumber

theorem Changes.reserved (h : s.Changes s' gone new) (hr : s.Reserved number t) :
    s'.Reserved number t where
  lt := hr.lt.trans_le h.count
  cause x hx hnumber := by
    rcases h.active x hx with hx | ⟨hle, -⟩
    · exact hr.cause x hx hnumber
    · exact absurd hr.lt (Nat.not_lt.mpr (hnumber ▸ hle))

theorem Changes.numbered (h : s.Changes s' gone new) (hs : s.Numbered) : s'.Numbered := by
  intro x hx
  rcases h.active x hx with hx | ⟨-, hlt⟩
  · exact (hs x hx).trans_le h.count
  · exact hlt

/-- An alarm that is set reserves its number. -/
theorem reserved_setAlarm (hs : s.Numbered) (seconds : Binary64) (t : Turn) :
    (s.setAlarm seconds t).2.Reserved (s.setAlarm seconds t).1 t where
  lt := Nat.lt_succ_self _
  cause x hx hnumber := by
    rw [setAlarm, Alarms.active_insert, Multiset.mem_cons] at hx
    rcases hx with rfl | hx
    · rfl
    · exact absurd (hs x hx) (Nat.not_lt.mpr (Nat.le_of_eq hnumber.symm))

/-- What is pending and not gone is still pending. -/
theorem Changes.mem (h : s.Changes s' gone new) (hs : t ∈ s.pending) (kept : t ∉ gone) :
    t ∈ s'.pending := by
  have hmem : t ∈ s'.pending + gone := h.pending ▸ Multiset.mem_add.mpr (.inl hs)
  exact (Multiset.mem_add.mp hmem).resolve_right kept

theorem Changes.mem_new (h : s.Changes s' gone new) (hs : t ∈ new) (kept : t ∉ gone) :
    t ∈ s'.pending := by
  have hmem : t ∈ s'.pending + gone := h.pending ▸ Multiset.mem_add.mpr (.inr hs)
  exact (Multiset.mem_add.mp hmem).resolve_right kept

/-- Time that passes changes nothing but the timer. -/
theorem changes_wake (s : Scene σ) : s.Changes s.wake 0 0 := by
  obtain ⟨hpending, hactive, hcount, -⟩ := s.wake_spec
  exact ⟨by rw [hpending], Nat.le_of_eq hcount.symm,
    fun x hx => .inl (Multiset.mem_of_le hactive hx)⟩

end Scene
end Conveyor.Worker
