import Conveyor.Destination.Recording
import Conveyor.Proofs.Keyed
import Conveyor.Proofs.Run.Journal

/-!
# Versions of log entries

The operations of the journal in any order, each on any version of an entry that an operation before
it has returned. An operation looks at the version that it is given and writes to the entry that is
stored, so a version from before the end of a run can still be written over its final one. Where
that does not happen, what has a final status stays as it is.
-/

namespace Conveyor.Journal

open Activity

variable {τ σ : Type}

/-- What can be done to the log. A version is named by its place among those returned so far. -/
inductive Operation where
  | start (r : InboundRecord) (p : Pipeline) (w : Option Workflow)
  | dropped (r : InboundRecord) (retentionHours : Option Binary64)
  | retry (version : Nat) (message : String)
  | finish (version : Nat) (end_ : Ending) (w : Option Workflow)

/-- The version of an entry that was returned last. -/
def newest? (id : String) (versions : List LogEntry) : Option LogEntry :=
  versions.reverse.find? fun v => v.id = id

namespace Operation

/-- The version that the operation is given. -/
def version? (versions : List LogEntry) : Operation → Option LogEntry
  | .start .. | .dropped .. => none
  | .retry i _ | .finish i _ _ => versions[i]?

/-- What the operation does; nothing if it names a version that there is not. -/
def activity? (versions : List LogEntry) : Operation → Option (Activity (Except Fault LogEntry))
  | .start r p w => some (Journal.start r p w)
  | .dropped r hours => some (Journal.dropped r hours)
  | .retry i message => versions[i]?.map fun e => Journal.retry e message
  | .finish i end_ w => versions[i]?.map fun e => Journal.finish e end_ w

/-- Whether the operation writes to the entry of an id through a version that is still open. -/
def writesTo (id : String) (versions : List LogEntry) (op : Operation) : Bool :=
  match op.version? versions with
  | some v => v.id = id && !v.isTerminal
  | none => false

/-- The version that the operation is given, if any, is the newest of its entry. -/
def IsCurrent (versions : List LogEntry) (op : Operation) : Prop :=
  ∀ v, op.version? versions = some v → newest? v.id versions = some v

end Operation

/-- A log in use, and all versions of entries that its operations have returned. -/
structure Ledger (σ : Type) where
  world : World σ
  versions : List LogEntry := []

namespace Ledger

/-- Carry out an operation at a moment. -/
def perform (a : Adapter τ σ) (l : Ledger σ) (op : Moment × Operation) : Ledger σ :=
  let w := { l.world with now := op.1 }
  match op.2.activity? l.versions with
  | some t => ⟨(w.carryOut a t).2, l.versions ++ (w.carryOut a t).1.toOption.toList⟩
  | none => ⟨w, l.versions⟩

def performAll (a : Adapter τ σ) (l : Ledger σ) (ops : List (Moment × Operation)) : Ledger σ :=
  ops.foldl (perform a) l

/-- The changes of the log that an operation makes. -/
def changes (a : Adapter τ σ) (l : Ledger σ) (op : Moment × Operation) : List LogOp :=
  match op.2.activity? l.versions with
  | some t => logOps (events (World.reply a) t { l.world with now := op.1 })
  | none => []

/-- The changes of the log that operations make one after the other. -/
def allChanges (a : Adapter τ σ) (l : Ledger σ) : List (Moment × Operation) → List LogOp
  | [] => []
  | op :: ops => l.changes a op ++ (l.perform a op).allChanges a ops

/-- Whether any of the operations writes to the entry of an id through a version that is still
open when it is carried out. -/
def reopens (a : Adapter τ σ) (id : String) (l : Ledger σ) : List (Moment × Operation) → Bool
  | [] => false
  | op :: ops => op.2.writesTo id l.versions || (l.perform a op).reopens a id ops

/-- Every operation that is given a version is given the newest of its entry. -/
def KeepsUp (a : Adapter τ σ) (l : Ledger σ) : List (Moment × Operation) → Prop
  | [] => True
  | op :: ops => op.2.IsCurrent l.versions ∧ (l.perform a op).KeepsUp a ops

/-! ## What an operation does -/

/-- What becomes of a ledger by one operation, and the change of the log that it makes. -/
inductive Step (l : Ledger σ) (op : Operation) : List LogOp → Ledger σ → Prop where
  /-- The operation is refused, or has nothing to work on. -/
  | idle {w : World σ} (log : w.log = l.world.log) (drawn : w.drawn = l.world.drawn)
      (closed : ∀ id, op.writesTo id l.versions = false) : Step l op [] ⟨w, l.versions⟩
  /-- An entry is put into the log under an id that is drawn for it. -/
  | opened {w : World σ} {e : LogEntry} (id : e.id = World.idText (l.world.drawn + 1))
      (log : w.log = l.world.log.append e) (drawn : w.drawn = l.world.drawn + 1)
      (new : op.version? l.versions = none) : Step l op [.append e] ⟨w, l.versions ++ [e]⟩
  /-- A version that is open is followed by another, which takes the place of the stored entry or
  is thrown away together with it. -/
  | rewritten {w : World σ} {v e : LogEntry} {change : LogOp}
      (given : op.version? l.versions = some v) (isOpen : v.isTerminal = false) (id : e.id = v.id)
      (writes : change = .update e ∨ change = .discard v.id)
      (log : w.log = change.apply l.world.log) (drawn : w.drawn = l.world.drawn) :
      Step l op [change] ⟨w, l.versions ++ [e]⟩

theorem writesTo_eq_false {id : String} {versions : List LogEntry} {op : Operation}
    (h : op.version? versions = none) : op.writesTo id versions = false := by
  rw [Operation.writesTo, h]

theorem writesTo_eq_true_iff {id : String} {versions : List LogEntry} {op : Operation} :
    op.writesTo id versions = true ↔
      ∃ v, op.version? versions = some v ∧ v.id = id ∧ v.isTerminal = false := by
  unfold Operation.writesTo
  cases op.version? versions with
  | none => simp
  | some v => simp

/-- A final version is refused, and the log stays as it is. -/
theorem step_refused {a : Adapter τ σ} {l : Ledger σ} {op : Operation} {v : LogEntry} {w : World σ}
    {t : Activity (Except Fault LogEntry)} {f : Fault} (refused : t = .done (.error f))
    (given : op.version? l.versions = some v) (final : v.isTerminal = true)
    (log : w.log = l.world.log) (drawn : w.drawn = l.world.drawn) :
    Step l op (logOps (events (World.reply a) t w))
      ⟨(w.carryOut a t).2, l.versions ++ (w.carryOut a t).1.toOption.toList⟩ := by
  subst refused
  show Step l op [] ⟨w, l.versions ++ []⟩
  rw [List.append_nil]
  refine .idle log drawn fun id => ?_
  rw [Operation.writesTo, given]
  simp [final]

/-- Where an activity opens an entry, the ledger opens it. -/
theorem step_opening {a : Adapter τ σ} {l : Ledger σ} {op : Operation} {w : World σ}
    {t : Activity (Except Fault LogEntry)} {expires : Moment → Except Fault (Option Moment)}
    {make : Moment → Option Moment → String → LogEntry}
    (opening : Run.Opening expires make (events (World.reply a) t w) (w.carryOut a t).1)
    (named : ∀ created until_ id, (make created until_ id).id = id)
    (log : w.log = l.world.log) (drawn : w.drawn = l.world.drawn)
    (new : op.version? l.versions = none) :
    Step l op (logOps (events (World.reply a) t w))
      ⟨(w.carryOut a t).2, l.versions ++ (w.carryOut a t).1.toOption.toList⟩ := by
  have hlog := World.log_carryOut a t w
  have hdrawn := World.drawn_carryOut a t w
  obtain ⟨n, hids⟩ := World.drawnIds_events a t w
  rw [log] at hlog
  rw [drawn] at hdrawn hids
  generalize events (World.reply a) t w = es at opening hlog hdrawn hids
  generalize (w.carryOut a t).1 = out at opening
  cases opening with
  | refused never =>
    rw [show Except.toOption _ = none from rfl, Option.toList_none, List.append_nil]
    exact .idle hlog hdrawn fun _ => writesTo_eq_false new
  | @opened created until_ id due =>
    refine .opened ?_ hlog hdrawn new
    rw [named]
    -- the only id that was drawn is the next one
    cases n with
    | zero => cases hids
    | succ n => exact (List.cons.inj hids).1

theorem perform_step (a : Adapter τ σ) (l : Ledger σ) (op : Moment × Operation) :
    Step l op.2 (l.changes a op) (l.perform a op) := by
  obtain ⟨now, op⟩ := op
  unfold changes perform
  cases op with
  | start r p w =>
    exact step_opening (Run.opening_start (course_events _ _ _)) (fun _ _ _ => rfl) rfl rfl rfl
  | dropped r hours =>
    exact step_opening (Run.opening_dropped (course_events _ _ _)) (fun _ _ _ => rfl) rfl rfl rfl
  | retry i message =>
    simp only [Operation.activity?]
    cases hv : l.versions[i]? with
    | none => exact .idle rfl rfl fun id => writesTo_eq_false hv
    | some v =>
      have given : (Operation.retry i message).version? l.versions = some v := hv
      simp only [Option.map_some]
      cases hfinal : v.isTerminal with
      | true =>
        simp only [Journal.retry, hfinal, if_true]
        exact step_refused rfl given hfinal rfl rfl
      | false =>
        simp only [Journal.retry, hfinal]
        exact .rewritten given hfinal rfl (.inl rfl) rfl rfl
  | finish i end_ w =>
    simp only [Operation.activity?]
    cases hv : l.versions[i]? with
    | none => exact .idle rfl rfl fun id => writesTo_eq_false hv
    | some v =>
      have given : (Operation.finish i end_ w).version? l.versions = some v := hv
      simp only [Option.map_some]
      cases hfinal : v.isTerminal with
      | true =>
        simp only [Journal.finish, hfinal, if_true]
        exact step_refused rfl given hfinal rfl rfl
      | false =>
        simp only [Journal.finish, hfinal]
        cases hdiscards : !end_.success && w.any (·.header.deleteFailedImmediately) with
        | true => exact .rewritten given hfinal rfl (.inr rfl) rfl rfl
        | false => exact .rewritten given hfinal rfl (.inl rfl) rfl rfl

/-! ## What stays as it is -/

theorem Step.ids_ne {l l' : Ledger σ} {op : Operation} {changes : List LogOp} {id : String}
    (h : Step l op changes l') (closed : op.writesTo id l.versions = false)
    (drawn : id ≠ World.idText (l.world.drawn + 1)) : ∀ change ∈ changes, change.id ≠ id := by
  cases h with
  | idle => exact fun _ h => absurd h List.not_mem_nil
  | @opened w e hid =>
    intro change hmem
    obtain rfl := List.mem_singleton.mp hmem
    exact fun heq => drawn (heq.symm.trans hid)
  | @rewritten w v e change given isOpen hid writes =>
    intro change' hmem heq
    obtain rfl := List.mem_singleton.mp hmem
    have hv : v.id = id := by
      rcases writes with rfl | rfl
      · exact hid.symm.trans heq
      · exact heq
    have hopen := writesTo_eq_true_iff.mpr ⟨v, given, hv, isOpen⟩
    rw [closed] at hopen
    cases hopen

theorem Step.exists_id_eq {l l' : Ledger σ} {op : Operation} {changes : List LogOp} {id : String}
    (h : Step l op changes l') (writes : op.writesTo id l.versions = true) :
    ∃ change ∈ changes, change.id = id := by
  obtain ⟨u, hu, rfl, hopen⟩ := writesTo_eq_true_iff.mp writes
  cases h with
  | idle _ _ closed =>
    rw [closed] at writes
    cases writes
  | opened _ _ _ new =>
    rw [new] at hu
    cases hu
  | @rewritten w v e change given isOpen hid writes =>
    obtain rfl := Option.some.inj (hu.symm.trans given)
    refine ⟨change, List.mem_singleton_self _, ?_⟩
    rcases writes with rfl | rfl
    · exact hid
    · rfl

/-- The log after an operation is the log before with the changes made in order. -/
theorem Step.log_eq {l l' : Ledger σ} {op : Operation} {changes : List LogOp}
    (h : Step l op changes l') : l'.world.log = changes.foldl LogOp.apply l.world.log := by
  cases h with
  | idle log => exact log
  | opened _ log => exact log
  | rewritten _ _ _ _ log => exact log

theorem newest?_concat (id : String) (versions : List LogEntry) (e : LogEntry) :
    newest? id (versions ++ [e]) = if e.id = id then some e else newest? id versions := by
  rw [newest?, List.reverse_append, List.reverse_singleton, List.singleton_append, List.find?_cons]
  split <;> simp_all [newest?]

/-- What holds of a ledger at all times. -/
structure Sound (l : Ledger σ) : Prop where
  orderly : l.world.Orderly
  drawn : ∀ v ∈ l.versions, ∃ n ≤ l.world.drawn, v.id = World.idText n
  /-- What is stored is what was returned last. -/
  newest : ∀ id e v, l.world.log.get? id = some e → newest? id l.versions = some v → e = v

/-- A change that stores what is returned, or nothing, under its id. -/
theorem Sound.newest_apply {l : Ledger σ} (hl : l.Sound) {change : LogOp} {e : LogEntry}
    (same : change.id = e.id)
    (own : ∀ e', (change.apply l.world.log).get? e.id = some e' → e' = e) (id : String)
    (e' v : LogEntry) (stored : (change.apply l.world.log).get? id = some e')
    (newest : newest? id (l.versions ++ [e]) = some v) : e' = v := by
  rw [newest?_concat] at newest
  by_cases hid : e.id = id
  · rw [if_pos hid] at newest
    subst hid
    exact (own e' stored).trans (Option.some.inj newest)
  · rw [if_neg hid] at newest
    refine hl.newest id e' v ?_ newest
    exact (MemoryLog.get?_apply_of_ne change _ (same ▸ hid)).symm.trans stored

theorem Sound.step {l l' : Ledger σ} {op : Operation} {changes : List LogOp} (hl : l.Sound)
    (h : Step l op changes l') : l'.Sound := by
  cases h with
  | idle log drawn closed =>
    refine ⟨hl.orderly.of_ops [] log (Nat.le_of_eq drawn.symm) fun _ h => absurd h List.not_mem_nil,
      ?_, ?_⟩
    · rw [drawn]
      exact hl.drawn
    · rw [log]
      exact hl.newest
  | @opened w e id log drawn new =>
    refine ⟨hl.orderly.of_ops [.append e] log (drawn ▸ Nat.le_succ _) ?_, ?_, ?_⟩
    · intro e' he' n hn heq
      obtain rfl : e' = e := by simpa using he'
      have hn' : n = l.world.drawn + 1 := World.idText_inj (heq.symm.trans id)
      exact Nat.ne_of_gt hn (hn'.trans drawn.symm)
    · intro v hv
      rcases List.mem_append.mp hv with hv | hv
      · obtain ⟨n, hn, hid⟩ := hl.drawn v hv
        exact ⟨n, drawn ▸ Nat.le_succ_of_le hn, hid⟩
      · obtain rfl := List.mem_singleton.mp hv
        exact ⟨l.world.drawn + 1, Nat.le_of_eq drawn.symm, id⟩
    · rw [log]
      refine hl.newest_apply (show (LogOp.append e).id = e.id from rfl) fun e' hstored => ?_
      exact Option.some.inj (hstored.symm.trans (Keyed.get?_put_same _ _ _))
  | @rewritten w v e change given isOpen hid writes log drawn =>
    have hv : v ∈ l.versions := by
      cases op with
      | start | dropped => cases given
      | retry | finish => exact List.mem_of_getElem? given
    have hchange : change.id = e.id := by
      rcases writes with rfl | rfl
      · rfl
      · exact hid.symm
    refine ⟨hl.orderly.of_ops [change] log (Nat.le_of_eq drawn.symm) ?_, ?_, ?_⟩
    · intro e' he'
      rcases writes with rfl | rfl <;> simp at he'
    · intro u hu
      rw [drawn]
      rcases List.mem_append.mp hu with hu | hu
      · exact hl.drawn u hu
      · obtain rfl := List.mem_singleton.mp hu
        obtain ⟨n, hn, hvid⟩ := hl.drawn v hv
        exact ⟨n, hn, hid.trans hvid⟩
    · rw [log]
      refine hl.newest_apply hchange fun e' hstored => ?_
      rcases writes with rfl | rfl
      · -- an update is stored or finds nothing to replace
        have hstored : (l.world.log.update e).get? e.id = some e' := hstored
        rw [MemoryLog.get?_update] at hstored
        obtain ⟨_, -, rfl⟩ := Option.map_eq_some_iff.mp hstored
        rfl
      · have hgone : (l.world.log.delete v.id).get? v.id = none :=
          Keyed.get?_erase_same hl.orderly.nodup v.id
        rw [hid] at hstored
        cases hgone.symm.trans hstored

theorem Sound.performAll {l : Ledger σ} (hl : l.Sound) (a : Adapter τ σ)
    (ops : List (Moment × Operation)) : (l.performAll a ops).Sound := by
  induction ops generalizing l with
  | nil => exact hl
  | cons op ops ih => exact ih (hl.step (perform_step a l op))

/-- A stored entry stays as it is while nothing writes to it through an open version. -/
theorem Sound.untouched {l : Ledger σ} (hl : l.Sound) (a : Adapter τ σ) {id : String}
    {e : LogEntry} (stored : l.world.log.get? id = some e) {ops : List (Moment × Operation)}
    (closed : l.reopens a id ops = false) :
    (∀ change ∈ l.allChanges a ops, change.id ≠ id) ∧
      (l.performAll a ops).world.log.get? id = some e := by
  induction ops generalizing l with
  | nil => exact ⟨fun _ h => absurd h List.not_mem_nil, stored⟩
  | cons op ops ih =>
    obtain ⟨hop, hops⟩ := Bool.or_eq_false_iff.mp closed
    have step := perform_step a l op
    have hnew : id ≠ World.idText (l.world.drawn + 1) := by
      rintro rfl
      rw [hl.orderly.fresh _ (Nat.lt_succ_self _)] at stored
      cases stored
    have hids := step.ids_ne hop hnew
    have hstored : (l.perform a op).world.log.get? id = some e := by
      rw [step.log_eq, MemoryLog.get?_foldl_of_ne hids, stored]
    obtain ⟨hrest, hlast⟩ := ih (hl.step step) hstored hops
    refine ⟨fun change hmem => ?_, hlast⟩
    rcases List.mem_append.mp hmem with hmem | hmem
    · exact hids change hmem
    · exact hrest change hmem

theorem exists_change_of_reopens (a : Adapter τ σ) {l : Ledger σ} {id : String}
    {ops : List (Moment × Operation)} (reopened : l.reopens a id ops = true) :
    ∃ change ∈ l.allChanges a ops, change.id = id := by
  induction ops generalizing l with
  | nil => cases reopened
  | cons op ops ih =>
    rcases Bool.or_eq_true_iff.mp reopened with hop | hops
    · obtain ⟨change, hmem, hid⟩ := (perform_step a l op).exists_id_eq hop
      exact ⟨change, List.mem_append_left _ hmem, hid⟩
    · obtain ⟨change, hmem, hid⟩ := ih hops
      exact ⟨change, List.mem_append_right _ hmem, hid⟩

/-- Who goes on from the newest version never opens what is final. -/
theorem Sound.reopens_eq_false {l : Ledger σ} (hl : l.Sound) (a : Adapter τ σ) {id : String}
    {e : LogEntry} (stored : l.world.log.get? id = some e) (final : e.isTerminal = true)
    {ops : List (Moment × Operation)} (current : l.KeepsUp a ops) :
    l.reopens a id ops = false := by
  induction ops generalizing l with
  | nil => rfl
  | cons op ops ih =>
    have hop : op.2.writesTo id l.versions = false := by
      refine Bool.eq_false_iff.mpr fun hwrites => ?_
      obtain ⟨v, hv, rfl, hopen⟩ := writesTo_eq_true_iff.mp hwrites
      obtain rfl := hl.newest _ e v stored (current.1 v hv)
      rw [final] at hopen
      cases hopen
    have hone : l.reopens a id [op] = false := by simp [reopens, hop]
    have hrest := ih (hl.step (perform_step a l op)) (hl.untouched a stored hone).2 current.2
    rw [reopens, hop, hrest]
    rfl

end Ledger

/-- Once an entry is stored with a final status, the operations that follow leave it alone exactly
if none of them is given a version of it that is still open; then it stays as it is. So it does when
every operation is given the newest version of its entry. -/
theorem final_entry_untouched_iff (a : Adapter τ σ) {w : World σ} (orderly : w.Orderly)
    (earlier later : List (Moment × Operation)) {id : String} {e : LogEntry}
    (stored : (Ledger.performAll a ⟨w, []⟩ earlier).world.log.get? id = some e)
    (final : e.isTerminal = true) :
    let l := Ledger.performAll a ⟨w, []⟩ earlier
    (l.reopens a id later = false ↔ ∀ change ∈ l.allChanges a later, change.id ≠ id) ∧
      (l.reopens a id later = false → (l.performAll a later).world.log.get? id = some e) ∧
      (l.KeepsUp a later → l.reopens a id later = false) := by
  intro l
  have hstart : Ledger.Sound (⟨w, []⟩ : Ledger σ) :=
    ⟨orderly, fun _ h => absurd h List.not_mem_nil, fun _ _ _ _ h => by cases h⟩
  have hl : l.Sound := hstart.performAll a earlier
  refine ⟨⟨fun closed => (hl.untouched a stored closed).1, fun untouched => ?_⟩,
    fun closed => (hl.untouched a stored closed).2, hl.reopens_eq_false a stored final⟩
  refine Bool.eq_false_iff.mpr fun reopened => ?_
  obtain ⟨change, hmem, hid⟩ := Ledger.exists_change_of_reopens a reopened
  exact untouched change hmem hid

/-- A log that nothing has been put into. -/
def blank : World Recording where
  now := ⟨0, none⟩
  destinations := {}

/-- A run that starts and succeeds. -/
def settled : List (Moment × Operation) :=
  [(⟨0, none⟩, .start Run.reading Run.patient none),
    (⟨1, none⟩, .finish 0 { success := true, message := "delivered" } none)]

/-- A retry through the version that the start has returned puts an entry that has succeeded back
into retry. -/
theorem stale_retry_touches_final :
    ((Ledger.performAll Recording.adapter ⟨blank, []⟩ settled).world.log.get? "id-1").map (·.status)
        = some .success ∧
      ((Ledger.performAll Recording.adapter ⟨blank, []⟩
          (settled ++ [(⟨2, none⟩, .retry 0 "late")])).world.log.get? "id-1").map (·.status)
        = some .retry := by
  decide +kernel

/-- A retry through the final version is refused, and another run does not matter. -/
theorem settled_entry_untouched :
    ∃ e, (Ledger.performAll Recording.adapter ⟨blank, []⟩ settled).world.log.get? "id-1" = some e ∧
      e.isTerminal = true ∧
      (Ledger.performAll Recording.adapter
        (Ledger.performAll Recording.adapter ⟨blank, []⟩ settled)
        [(⟨2, none⟩, .retry 1 "late"), (⟨3, none⟩, .start Run.reading Run.patient none),
          (⟨4, none⟩, .retry 2 "down")]).world.log.get? "id-1" = some e := by
  have orderly : blank.Orderly := ⟨List.nodup_nil, fun _ _ => rfl⟩
  have final :
      ((Ledger.performAll Recording.adapter ⟨blank, []⟩ settled).world.log.get? "id-1").map
        (·.isTerminal) = some true := by decide +kernel
  obtain ⟨e, stored, hfinal⟩ := Option.map_eq_some_iff.mp final
  refine ⟨e, stored, hfinal, ?_⟩
  exact (final_entry_untouched_iff Recording.adapter orderly settled _ stored hfinal).2.1
    (by decide +kernel)

end Conveyor.Journal
