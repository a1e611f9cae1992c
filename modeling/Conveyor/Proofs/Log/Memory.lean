import Conveyor.Proofs.Keyed
import Conveyor.Proofs.Run.Course
import Conveyor.Proofs.Text

/-!
# Changes of the log in memory

A change of an entry leaves the entries of other ids alone. An id that is new to the log gets the
last place, keeps it through all updates, and leaves no trace when its entry is discarded.
-/

namespace Conveyor.Keyed

variable {α : Type} {key : String} {m : Keyed α} {v : α}

theorem filter_put : (put key v m).filter (·.1 ≠ key) = m.filter (·.1 ≠ key) := by
  induction m with
  | nil => simp [put]
  | cons head rest ih =>
    obtain ⟨k, u⟩ := head
    by_cases h : k = key
    · simp [put, h]
    · simpa [put, h] using ih

theorem filter_erase : (erase key m).filter (·.1 ≠ key) = m.filter (·.1 ≠ key) := by
  induction m with
  | nil => rfl
  | cons head rest ih =>
    obtain ⟨k, u⟩ := head
    by_cases h : k = key
    · simp [erase, h]
    · simpa [erase, h] using ih

theorem get?_cons_eq_none {k : String} {u : α} :
    get? key ((k, u) :: m) = none ↔ k ≠ key ∧ get? key m = none := by
  by_cases h : k = key
  · simp [get?, h]
  · simp [get?, h]

/-- A new name gets the last place. -/
theorem put_of_absent (h : get? key m = none) : put key v m = m ++ [(key, v)] := by
  induction m with
  | nil => rfl
  | cons head rest ih =>
    obtain ⟨k, u⟩ := head
    obtain ⟨hne, hrest⟩ := get?_cons_eq_none.mp h
    rw [put, if_neg hne, ih hrest]
    rfl

theorem put_last {u : α} (h : get? key m = none) :
    put key v (m ++ [(key, u)]) = m ++ [(key, v)] := by
  induction m with
  | nil => simp [put]
  | cons head rest ih =>
    obtain ⟨k, x⟩ := head
    obtain ⟨hne, hrest⟩ := get?_cons_eq_none.mp h
    rw [List.cons_append, put, if_neg hne, ih hrest]
    rfl

theorem erase_last {u : α} (h : get? key m = none) : erase key (m ++ [(key, u)]) = m := by
  induction m with
  | nil => simp [erase]
  | cons head rest ih =>
    obtain ⟨k, x⟩ := head
    obtain ⟨hne, hrest⟩ := get?_cons_eq_none.mp h
    rw [List.cons_append, erase, if_neg hne, ih hrest]

theorem has_last {u : α} : has (m ++ [(key, u)]) key = true := by
  unfold has
  induction m with
  | nil => simp [get?]
  | cons head rest ih =>
    obtain ⟨k, x⟩ := head
    by_cases h : k = key
    · simp [get?, h]
    · simpa [get?, h] using ih

end Conveyor.Keyed

namespace Conveyor

open Activity

/-- The entries of the other ids, in their order. -/
def MemoryLog.others (l : MemoryLog) (id : String) : Keyed LogEntry :=
  l.entries.filter (·.1 ≠ id)

/-- The id that a change is about. -/
def Activity.LogOp.id : LogOp → String
  | .append e => e.id
  | .update e => e.id
  | .discard id => id

namespace MemoryLog

variable {l : MemoryLog} {id : String} {e v : LogEntry} {versions : List LogEntry}

/-- A change leaves the other entries alone. -/
theorem others_apply (op : LogOp) (l : MemoryLog) : (op.apply l).others op.id = l.others op.id := by
  cases op with
  | append e => exact Keyed.filter_put
  | discard id => exact Keyed.filter_erase
  | update e =>
    show (l.update e).others e.id = l.others e.id
    unfold update
    split
    · exact Keyed.filter_put
    · rfl

theorem get?_apply_of_ne (op : LogOp) (l : MemoryLog) (h : op.id ≠ id) :
    (op.apply l).get? id = l.get? id := by
  cases op with
  | append e => exact Keyed.get?_put_other e _ (Ne.symm h)
  | discard id' => exact Keyed.get?_erase_other _ (Ne.symm h)
  | update e =>
    show (l.update e).get? id = _
    unfold update
    split
    · exact Keyed.get?_put_other e _ (Ne.symm h)
    · rfl

theorem get?_foldl_of_ne {ops : List LogOp} (h : ∀ op ∈ ops, op.id ≠ id) :
    (ops.foldl LogOp.apply l).get? id = l.get? id := by
  induction ops generalizing l with
  | nil => rfl
  | cons op ops ih =>
    rw [List.foldl_cons, ih fun op hop => h op (List.mem_cons_of_mem _ hop)]
    exact get?_apply_of_ne op l (h op List.mem_cons_self)

theorem nodup_apply (op : LogOp) {l : MemoryLog} (h : l.entries.keys.Nodup) :
    (op.apply l).entries.keys.Nodup := by
  cases op with
  | append e => exact Keyed.nodup_keys_put _ _ h
  | discard id => exact Keyed.nodup_keys_erase _ h
  | update e =>
    show (l.update e).entries.keys.Nodup
    unfold update
    split
    · exact Keyed.nodup_keys_put _ _ h
    · exact h

theorem nodup_foldl (ops : List LogOp) {l : MemoryLog} (h : l.entries.keys.Nodup) :
    (ops.foldl LogOp.apply l).entries.keys.Nodup := by
  induction ops generalizing l with
  | nil => exact h
  | cons op ops ih => exact ih (nodup_apply op h)

theorem others_foldl {ops : List LogOp} (h : ∀ op ∈ ops, op.id = id) :
    (ops.foldl LogOp.apply l).others id = l.others id := by
  induction ops generalizing l with
  | nil => rfl
  | cons op ops ih =>
    rw [List.foldl_cons, ih fun op hop => h op (List.mem_cons_of_mem _ hop)]
    rw [← h op List.mem_cons_self]
    exact others_apply op l

/-- An entry that is there is there in its last version after all updates. -/
theorem get?_updates (hl : l.get? id = some v) (h : ∀ e ∈ versions, e.id = id) :
    ((versions.map .update).foldl LogOp.apply l).get? id = some (versions.getLastD v) := by
  induction versions generalizing l v with
  | nil => exact hl
  | cons e versions ih =>
    have he : e.id = id := h e List.mem_cons_self
    rw [List.getLastD_cons]
    refine ih ?_ fun e' he' => h e' (List.mem_cons_of_mem _ he')
    show (l.update e).get? id = some e
    have hhas : l.entries.has e.id = true := by
      rw [he, Keyed.has, show Keyed.get? id l.entries = some v from hl]
      rfl
    rw [update, if_pos hhas, ← he]
    exact Keyed.get?_put_same _ _ _

/-- An entry in the last place stays there, in its last version, through all updates. -/
theorem entries_updates {before : Keyed LogEntry} (hl : l.entries = before ++ [(id, v)])
    (hnew : Keyed.get? id before = none) (h : ∀ e ∈ versions, e.id = id) :
    ((versions.map .update).foldl LogOp.apply l).entries
      = before ++ [(id, versions.getLastD v)] := by
  induction versions generalizing l v with
  | nil => exact hl
  | cons e versions ih =>
    have he : e.id = id := h e List.mem_cons_self
    rw [List.getLastD_cons]
    refine ih ?_ fun e' he' => h e' (List.mem_cons_of_mem _ he')
    show (l.update e).entries = before ++ [(id, e)]
    have hhas : l.entries.has e.id = true := by
      rw [he, hl]
      exact Keyed.has_last
    rw [update, if_pos hhas]
    show Keyed.put e.id e l.entries = _
    rw [he, hl]
    exact Keyed.put_last hnew

/-- An entry under a new id leaves no trace when it is discarded after all updates. -/
theorem discard_updates (hnew : l.get? e.id = none) (h : ∀ v ∈ versions, v.id = e.id) :
    (((versions.map .update).foldl LogOp.apply (l.append e)).delete e.id) = l := by
  have happend : (l.append e).entries = l.entries ++ [(e.id, e)] := Keyed.put_of_absent hnew
  have hentries := entries_updates happend hnew h
  unfold delete
  rw [hentries, Keyed.erase_last hnew]

theorem get?_update (l : MemoryLog) (e : LogEntry) :
    (l.update e).get? e.id = (l.get? e.id).map fun _ => e := by
  unfold update Keyed.has
  cases h : l.entries.get? e.id with
  | none => simp [get?, h]
  | some old =>
    rw [if_pos Option.isSome_some]
    simp only [get?, append, h, Keyed.get?_put_same, Option.map_some]

/-- An id that the log does not have comes into it by an append only. -/
theorem get?_foldl_eq_none {ops : List LogOp} (h : l.get? id = none)
    (named : ∀ e, .append e ∈ ops → e.id ≠ id) : (ops.foldl LogOp.apply l).get? id = none := by
  induction ops generalizing l with
  | nil => exact h
  | cons op ops ih =>
    refine ih ?_ fun e he => named e (List.mem_cons_of_mem _ he)
    by_cases hid : op.id = id
    · subst hid
      cases op with
      | append e => exact absurd rfl (named e List.mem_cons_self)
      | discard id =>
        refine Keyed.get?_eq_none_iff.mpr fun hmem => Keyed.get?_eq_none_iff.mp h ?_
        obtain ⟨f, hf, hk⟩ := List.mem_map.mp hmem
        exact List.mem_map.mpr ⟨f, Keyed.mem_of_mem_erase hf, hk⟩
      | update e =>
        show (l.update e).get? e.id = none
        rw [get?_update, show l.get? e.id = none from h]
        rfl
    · rw [get?_apply_of_ne op l hid]
      exact h

end MemoryLog

/-! ## Logs under drawn ids -/

namespace World

variable {σ : Type} {w w' : World σ}

theorem idText_inj {m n : Nat} (h : idText m = idText n) : m = n := by
  have hrepr : "id-" ++ Nat.repr m = "id-" ++ Nat.repr n := by simpa [idText] using h
  exact Text.natText_inj ((String.append_right_inj _).mp hrepr)

/-- No id has two entries, and no id has one that is still to be drawn. -/
structure Orderly (w : World σ) : Prop where
  nodup : w.log.entries.keys.Nodup
  fresh : ∀ n, w.drawn < n → w.log.get? (idText n) = none

theorem Orderly.of_ops (h : w.Orderly) (ops : List LogOp)
    (log : w'.log = ops.foldl LogOp.apply w.log) (drawn : w.drawn ≤ w'.drawn)
    (named : ∀ e, .append e ∈ ops → ∀ n, w'.drawn < n → e.id ≠ idText n) : w'.Orderly where
  nodup := log ▸ MemoryLog.nodup_foldl ops h.nodup
  fresh n hn := by
    rw [log]
    exact MemoryLog.get?_foldl_eq_none (h.fresh n (Nat.lt_of_le_of_lt drawn hn))
      fun e he => named e he n hn

end World
end Conveyor
