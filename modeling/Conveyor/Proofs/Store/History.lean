import Conveyor.Proofs.Pipeline.Alike
import Conveyor.Proofs.Store

/-!
# The history of a store

A store in use, and all that was done to it. What stands under an id is the workflow that was last
saved under it, unless it was deleted since (`standing?`). Documents and index rows of the store are
those of the standing workflows after any changes, refused ones included.
-/

namespace Conveyor.WorkflowStore

/-- What is done to a store. -/
inductive Change where
  | save (w : Workflow)
  | delete (id : String)

/-- How a change ends. -/
inductive Ending where
  | saved
  | refused (f : Failure)
  | deleted (existed : Bool)

/-- Carry out a change. A save is one transaction: if any part of it fails, none is kept. -/
def perform (s : WorkflowStore) : Change → Ending × WorkflowStore
  | .save w =>
    match s.save w with
    | .ok s' => (.saved, s')
    | .error f => (.refused f, s)
  | .delete id => (.deleted (s.delete id).1, (s.delete id).2)

/-- The transaction of a refused save was given up, and the store is what it was. -/
theorem perform_eq_self {s : WorkflowStore} {w : Workflow} {f : Failure}
    (h : (s.perform (.save w)).1 = .refused f) : (s.perform (.save w)).2 = s := by
  cases hsave : s.save w with
  | ok s' => simp [perform, hsave] at h
  | error f => simp [perform, hsave]

/-- What stands under an id after one more change, given what stood there before. -/
def stand (id : String) (before : Option Workflow) : Change × Ending → Option Workflow
  | (.save w, .saved) => if w.id = id then some w else before
  | (.delete id', _) => if id' = id then none else before
  | _ => before

/-- The workflow that was last saved under an id and not deleted since. -/
def standing? (id : String) (history : List (Change × Ending)) : Option Workflow :=
  history.foldl (stand id) none

/-- A store in use, and what has been done to it. -/
structure InUse where
  store : WorkflowStore := {}
  history : List (Change × Ending) := []

namespace InUse

def perform (u : InUse) (c : Change) : InUse :=
  ⟨(u.store.perform c).2, u.history ++ [(c, (u.store.perform c).1)]⟩

/-- A new store after changes one after the other. -/
def ofChanges (changes : List Change) : InUse := changes.foldl perform {}

/-- Documents and index rows are those of what stands, which can be read again. -/
structure IsSound (u : InUse) : Prop where
  names : u.store.documents.keys.Nodup
  documents : ∀ id, Option.Rel (fun w document => w.documentText = .ok document)
    (standing? id u.history) (u.store.documents.get? id)
  rows : ∀ id, (u.store.pipelines.filter fun r => r.workflowId = id) =
    ((standing? id u.history).map rowsOf).getD []
  ids : (u.store.pipelines.map (·.id)).Nodup
  standing : ∀ id w, standing? id u.history = some w →
    w.id = id ∧ w.IsValid ∧ w.wire.isRegular = true

variable {u : InUse}

theorem standing?_concat (id : String) (history : List (Change × Ending)) (e : Change × Ending) :
    standing? id (history ++ [e]) = stand id (standing? id history) e := by
  simp [standing?]

theorem isSound_new : ({} : InUse).IsSound where
  names := List.nodup_nil
  documents _ := .none
  rows _ := rfl
  ids := List.nodup_nil
  standing _ _ h := by cases h

/-- The rows of one workflow among those of the others and new ones of its own. -/
theorem filter_replaced {rows : List PipelineRow} {w : Workflow} {id : String} :
    ((rows.filter fun r => r.workflowId ≠ w.id) ++ rowsOf w).filter (fun r => r.workflowId = id) =
      if w.id = id then rowsOf w else rows.filter fun r => r.workflowId = id := by
  by_cases h : w.id = id
  · subst h
    simp [rowsOf, List.filter_filter]
  · rw [if_neg h, List.filter_append, List.filter_filter]
    have hnew : (rowsOf w).filter (fun r => r.workflowId = id) = [] := by simp [rowsOf, h]
    rw [hnew, List.append_nil]
    refine List.filter_congr fun r _ => ?_
    grind

/-- A refused save leaves the store in line with what stands. -/
theorem IsSound.refused (h : u.IsSound) {w : Workflow} {f : Failure}
    (refused : u.store.save w = .error f) : (u.perform (.save w)).IsSound := by
  have hafter : u.perform (.save w) = ⟨u.store, u.history ++ [(.save w, .refused f)]⟩ := by
    simp [InUse.perform, WorkflowStore.perform, refused]
  have hsame : ∀ id, standing? id (u.history ++ [(.save w, .refused f)]) =
      standing? id u.history := fun id => standing?_concat id _ _
  rw [hafter]
  exact ⟨h.names, fun id => by rw [hsame]; exact h.documents id,
    fun id => by rw [hsame]; exact h.rows id, h.ids,
    fun id x hx => h.standing id x (by rwa [hsame] at hx)⟩

/-- The rows of a saved workflow have ids of their own. -/
theorem nodup_ids_others {s : WorkflowStore} {w : Workflow} (h : (s.pipelines.map (·.id)).Nodup)
    (valid : w.IsValid) (free : s.IsFree w) : ((s.others w ++ rowsOf w).map (·.id)).Nodup := by
  rw [List.map_append, List.nodup_append]
  refine ⟨h.sublist (List.filter_sublist.map _), ?_, ?_⟩
  · simpa [rowsOf, Function.comp_def] using valid.ids
  · intro a ha b hb heq
    obtain ⟨r, hr, rfl⟩ := List.mem_map.mp ha
    obtain ⟨r', hr', rfl⟩ := List.mem_map.mp hb
    obtain ⟨p, hp, rfl⟩ := List.mem_map.mp hr'
    obtain ⟨hrow, hother⟩ := List.mem_filter.mp hr
    -- a row that stays is another workflow's, whose ids the save was checked against
    exact free r hrow (by simpa using hother) p hp heq

/-- After a save that succeeds the workflow stands under its id, and the rest is as before. -/
theorem IsSound.saved (h : u.IsSound) {w : Workflow} {s' : WorkflowStore}
    (saved : u.store.save w = .ok s') (regular : w.wire.isRegular = true) :
    (u.perform (.save w)).IsSound := by
  have hafter : u.perform (.save w) = ⟨s', u.history ++ [(.save w, .saved)]⟩ := by
    simp [InUse.perform, WorkflowStore.perform, saved]
  have hstands : ∀ id, standing? id (u.history ++ [(.save w, .saved)]) =
      if w.id = id then some w else standing? id u.history := fun id => standing?_concat id _ _
  obtain ⟨valid, -, free, document, written, rfl⟩ := save_eq_ok_iff.mp saved
  rw [hafter]
  constructor
  case names => exact Keyed.nodup_keys_put _ _ h.names
  case documents =>
    intro id
    rw [hstands]
    by_cases hid : w.id = id
    · subst hid
      rw [if_pos rfl, Keyed.get?_put_same]
      exact .some written
    · rw [if_neg hid, Keyed.get?_put_other _ _ (Ne.symm hid)]
      exact h.documents id
  case rows =>
    intro id
    rw [hstands]
    refine filter_replaced.trans ?_
    split
    · rfl
    · exact h.rows id
  case ids => exact nodup_ids_others h.ids valid free
  case standing =>
    intro id x hx
    rw [hstands] at hx
    split at hx
    · rename_i hid
      obtain rfl := Option.some.inj hx
      exact ⟨hid, valid, regular⟩
    · exact h.standing id x hx

/-- After a deletion nothing stands under the id, and the rest is as before. -/
theorem IsSound.deleted (h : u.IsSound) (gone : String) : (u.perform (.delete gone)).IsSound := by
  have hstands : ∀ id, standing? id (u.perform (.delete gone)).history =
      if gone = id then none else standing? id u.history := fun id => standing?_concat id _ _
  constructor
  case names => exact Keyed.nodup_keys_erase _ h.names
  case documents =>
    intro id
    rw [hstands]
    by_cases hid : gone = id
    · subst hid
      rw [if_pos rfl, show Keyed.get? gone (u.perform (.delete gone)).store.documents = none from
        Keyed.get?_erase_same h.names gone]
      exact .none
    · rw [if_neg hid, show Keyed.get? id (u.perform (.delete gone)).store.documents = _ from
        Keyed.get?_erase_other _ (Ne.symm hid)]
      exact h.documents id
  case rows =>
    intro id
    rw [hstands]
    show ((u.store.pipelines.filter fun r => r.workflowId ≠ gone).filter _) = _
    by_cases hid : gone = id
    · subst hid
      simp [List.filter_filter]
    · rw [if_neg hid, ← h.rows, List.filter_filter]
      refine List.filter_congr fun r _ => ?_
      grind
  case ids => exact h.ids.sublist (List.filter_sublist.map _)
  case standing =>
    intro id x hx
    rw [hstands] at hx
    split at hx
    · cases hx
    · exact h.standing id x hx

/-- A change keeps the store in line with what stands. -/
theorem IsSound.perform (h : u.IsSound) {c : Change}
    (regular : ∀ w, c = .save w → w.wire.isRegular = true) : (u.perform c).IsSound := by
  cases c with
  | save w =>
    cases hsave : u.store.save w with
    | error f => exact h.refused hsave
    | ok s' => exact h.saved hsave (regular w rfl)
  | delete gone => exact h.deleted gone

theorem isSound_ofChanges {changes : List Change}
    (regular : ∀ w, .save w ∈ changes → w.wire.isRegular = true) :
    (ofChanges changes).IsSound := by
  -- the induction goes over the changes to come, from any store that is in line so far
  have hfold : ∀ (changes : List Change) (u : InUse), u.IsSound →
      (∀ w, .save w ∈ changes → w.wire.isRegular = true) →
        (changes.foldl InUse.perform u).IsSound := by
    intro changes
    induction changes with
    | nil => exact fun u h _ => h
    | cons c changes ih =>
      intro u h regular
      refine ih _ (h.perform fun w hw => regular w ?_) fun w hw => regular w (.tail _ hw)
      rw [hw]
      exact List.mem_cons_self
  exact hfold changes {} isSound_new regular

/-! ## What the store answers -/

theorem IsSound.get (h : u.IsSound) (id : String) :
    match standing? id u.history with
    | some w => ∃ found, u.store.get id = .ok (some found) ∧ found.Alike w
    | none => u.store.get id = .ok none := by
  have hdocument := h.documents id
  rw [WorkflowStore.get]
  cases hw : standing? id u.history with
  | none =>
    rw [hw] at hdocument
    cases hget : u.store.documents.get? id with
    | none => rfl
    | some document =>
      rw [hget] at hdocument
      cases hdocument
  | some w =>
    obtain ⟨-, valid, regular⟩ := h.standing id w hw
    rw [hw] at hdocument
    cases hget : u.store.documents.get? id with
    | none =>
      rw [hget] at hdocument
      cases hdocument
    | some document =>
      rw [hget] at hdocument
      cases hdocument with
      | some written =>
        refine ⟨w.canonical, ?_, Workflow.canonical_alike regular⟩
        show some <$> Workflow.load (.text document) = _
        rw [(Workflow.load_documentText_eq_ok_iff regular written).mpr ⟨valid.canonical regular, rfl⟩]
        rfl

theorem IsSound.pipelineIds (h : u.IsSound) (id : String) :
    u.store.pipelineIds id = ((standing? id u.history).map fun w => w.pipelines.map (·.id)).getD []
    := by
  rw [WorkflowStore.pipelineIds, h.rows]
  cases standing? id u.history with
  | none => rfl
  | some w => simp [rowsOf]

/-- A row is one of the workflow that it names, which stands. -/
theorem IsSound.mem_rows (h : u.IsSound) {r : PipelineRow} :
    r ∈ u.store.pipelines ↔
      ∃ w, standing? r.workflowId u.history = some w ∧ ∃ p ∈ w.pipelines, p.id = r.id := by
  have hrow : r ∈ u.store.pipelines ↔
      r ∈ u.store.pipelines.filter fun r' => r'.workflowId = r.workflowId := by simp
  rw [hrow, h.rows]
  cases hw : standing? r.workflowId u.history with
  | none => simp
  | some w =>
    obtain ⟨hid, -⟩ := h.standing _ w hw
    obtain ⟨id, owner⟩ := r
    simp [rowsOf, hid]

/-- No row has the id of another. -/
theorem IsSound.owner_unique (h : u.IsSound) {id id' pipeline : String}
    (hmem : pipeline ∈ u.store.pipelineIds id) (hmem' : pipeline ∈ u.store.pipelineIds id') :
    id = id' := by
  simp only [WorkflowStore.pipelineIds, List.mem_map, List.mem_filter, decide_eq_true_eq]
    at hmem hmem'
  obtain ⟨r, ⟨hr, rfl⟩, hid⟩ := hmem
  obtain ⟨r', ⟨hr', rfl⟩, hid'⟩ := hmem'
  rw [List.inj_on_of_nodup_map h.ids hr hr' (hid.trans hid'.symm)]

theorem IsSound.has (h : u.IsSound) (id : String) :
    u.store.documents.has id = (standing? id u.history).isSome := by
  have hdocument := h.documents id
  rw [Keyed.has]
  cases hw : standing? id u.history <;> cases hget : u.store.documents.get? id <;>
    rw [hw, hget] at hdocument
  · rfl
  · cases hdocument
  · cases hdocument
  · rfl

/-- Another workflow that stands has a pipeline of the same id as one of the workflow's. -/
def Collides (u : InUse) (w : Workflow) : Prop :=
  ∃ id x, id ≠ w.id ∧ standing? id u.history = some x ∧
    ∃ p ∈ w.pipelines, ∃ q ∈ x.pipelines, q.id = p.id

theorem IsSound.isFree_iff (h : u.IsSound) {w : Workflow} :
    u.store.IsFree w ↔ ¬u.Collides w := by
  constructor
  · rintro free ⟨id, x, hne, hx, p, hp, q, hq, hid⟩
    obtain rfl := (h.standing id x hx).1
    exact free ⟨q.id, x.id⟩ (h.mem_rows.mpr ⟨x, hx, q, hq, rfl⟩) hne p hp hid
  · intro apart r hr hne p hp hid
    obtain ⟨x, hx, q, hq, hqid⟩ := h.mem_rows.mp hr
    exact apart ⟨_, x, hne, hx, p, hp, q, hq, hqid.trans hid⟩

/-- A valid workflow that can be written is saved unless it collides with another one. -/
theorem IsSound.save_valid (h : u.IsSound) {w : Workflow} {document : String}
    (valid : w.issues = .ok []) (written : w.documentText = .ok document) (fits : numbersFit w = true) :
    (u.Collides w → (u.store.perform (.save w)).1 = .refused (.fault .integrity)) ∧
      (¬u.Collides w → (u.store.perform (.save w)).1 = .saved) := by
  have hvalid := Workflow.issues_eq_nil_iff_isValid.mp valid
  constructor
  · intro collides
    have hrefused : u.store.save w = .error (.fault .integrity) := by
      rw [save_of_isValid hvalid written, if_pos fits]
      cases hrows : addRows (u.store.others w) (rowsOf w) with
      | error f =>
        rw [addRows_eq_error hrows]
        rfl
      | ok rows =>
        have hsaved : u.store.save w = .ok ⟨u.store.documents.put w.id document, rows⟩ := by
          rw [save_of_isValid hvalid written, if_pos fits, hrows]
          rfl
        obtain ⟨-, -, free, -⟩ := save_eq_ok_iff.mp hsaved
        exact absurd collides (h.isFree_iff.mp free)
    simp [WorkflowStore.perform, hrefused]
  · intro apart
    have hsaved := save_eq_ok_iff.mpr
      ⟨hvalid, fits, h.isFree_iff.mpr apart, document, written, rfl⟩
    simp [WorkflowStore.perform, hsaved]

/-- A valid workflow that cannot be written, or whose numbers do not fit, is refused for that. -/
theorem refused_valid {w : Workflow} {f : Fault} (valid : w.issues = .ok [])
    (fails : w.documentText = .error f ∨
      (∃ document, w.documentText = .ok document) ∧ numbersFit w = false ∧ f = .overflow) :
    (u.store.perform (.save w)).1 = .refused (.fault f) := by
  have hvalid := Workflow.issues_eq_nil_iff_isValid.mp valid
  have hrefused : u.store.save w = .error (.fault f) := by
    rcases fails with unwritten | ⟨⟨document, written⟩, hnumbers, rfl⟩
    · exact save_of_unwritten hvalid unwritten
    · rw [save_of_isValid hvalid written, if_neg (by rw [hnumbers]; exact Bool.false_ne_true)]
  simp [WorkflowStore.perform, hrefused]

end InUse

/-- After any changes a store answers by what stands: under every id the workflow last saved and not
deleted since, with its pipelines, each of which belongs to it alone. A workflow with issues is
refused for them, one that has no document for that, and one with a pipeline of another is refused too;
all others are saved. Whenever a save is refused, all answers stay as they were. -/
theorem store_answers_history {changes : List Change}
    (regular : ∀ w, .save w ∈ changes → w.wire.isRegular = true) :
    let u := InUse.ofChanges changes
    (∀ id, match standing? id u.history with
      | some w => ∃ found, u.store.get id = .ok (some found) ∧ found.Alike w
      | none => u.store.get id = .ok none) ∧
    (∀ id, u.store.pipelineIds id =
      ((standing? id u.history).map fun w => w.pipelines.map (·.id)).getD []) ∧
    (∀ id id' pipeline, pipeline ∈ u.store.pipelineIds id → pipeline ∈ u.store.pipelineIds id' →
      id = id') ∧
    (∀ id, (u.store.perform (.delete id)).1 = .deleted (standing? id u.history).isSome) ∧
    (∀ w issues, w.issues = .ok issues → issues ≠ [] →
      (u.store.perform (.save w)).1 = .refused (.config issues)) ∧
    (∀ w, w.issues = .ok [] →
      (∀ f, w.documentText = .error f → (u.store.perform (.save w)).1 = .refused (.fault f)) ∧
      ∀ document, w.documentText = .ok document →
        (numbersFit w = false → (u.store.perform (.save w)).1 = .refused (.fault .overflow)) ∧
        (numbersFit w = true →
          (u.Collides w → (u.store.perform (.save w)).1 = .refused (.fault .integrity)) ∧
          (¬u.Collides w → (u.store.perform (.save w)).1 = .saved))) ∧
    ∀ w f, (u.store.perform (.save w)).1 = .refused f →
      let after := (u.store.perform (.save w)).2
      (∀ id, after.get id = u.store.get id) ∧ after.list = u.store.list ∧
        ∀ id, after.pipelineIds id = u.store.pipelineIds id := by
  intro u
  have sound : u.IsSound := InUse.isSound_ofChanges regular
  refine ⟨sound.get, sound.pipelineIds, fun _ _ _ => sound.owner_unique, fun id => ?_,
    fun w issues hissues hne => ?_, fun w valid => ⟨fun f unwritten => ?_, fun document written =>
      ⟨fun hnumbers => ?_, sound.save_valid valid written⟩⟩, fun w f hrefused => ?_⟩
  · rw [← sound.has]
    rfl
  · have hsave := (save_eq_config_iff (s := u.store)).mpr ⟨hissues, hne⟩
    simp [perform, hsave]
  · exact InUse.refused_valid valid (.inl unwritten)
  · exact InUse.refused_valid valid (.inr ⟨⟨document, written⟩, hnumbers, rfl⟩)
  · rw [perform_eq_self hrefused]
    exact ⟨fun _ => rfl, rfl, fun _ => rfl⟩

/-- A workflow with one pipeline. -/
def owning (id pipeline : String) : Workflow :=
  ⟨{ id := id, name := id },
    [{ id := pipeline
       sourceKind := .senderApp
       applicationId := some 1
       destinationKind := some .rest
       restId := some 7 }]⟩

/-- Two workflows whose ids and edges run together to one id of a pipeline: the second is refused as
long as the first stands. -/
theorem owning_answers_history :
    let first := owning "a" "a:b:c"
    let second := owning "a:b" "a:b:c"
    let u := InUse.ofChanges [.save first]
    first.wire.isRegular = true ∧
      (∃ found, u.store.get "a" = .ok (some found) ∧ found.Alike first) ∧
      u.store.pipelineIds "a" = ["a:b:c"] ∧
      (u.store.perform (.save second)).1 = .refused (.fault .integrity) ∧
      (u.store.perform (.save second)).2.get "a:b" = .ok none := by
  intro first second u
  have regular : first.wire.isRegular = true := by decide +kernel
  have hfirst : first.issues = .ok [] :=
    Workflow.issues_singleton (by decide +kernel) (by decide +kernel)
  have hsecond : second.issues = .ok [] :=
    Workflow.issues_singleton (by decide +kernel) (by decide +kernel)
  have written : ∀ id, (∃ document, (owning id "a:b:c").documentText = .ok document) :=
    fun id => Workflow.exists_documentText.mpr ⟨List.forall_mem_nil _, rfl⟩
  obtain ⟨_, firstWritten⟩ := written "a"
  obtain ⟨_, secondWritten⟩ := written "a:b"
  obtain ⟨-, -, -, -, -, saves, -⟩ := @store_answers_history [] (by simp)
  have hsaved := (((saves first hfirst).2 _ firstWritten).2 (by decide)).2 (by
    rintro ⟨id, x, -, h, -⟩
    cases h)
  have hstands : ∀ id, standing? id u.history = if "a" = id then some first else none := by
    intro id
    show stand id none (.save first, (WorkflowStore.perform {} (.save first)).1) = _
    rw [show (WorkflowStore.perform {} (.save first)).1 = .saved from hsaved]
    rfl
  obtain ⟨gets, rows, -, -, -, saves, refused⟩ :=
    @store_answers_history [.save first] (by simpa using regular)
  have hrefused := (((saves second hsecond).2 _ secondWritten).2 (by decide)).1
    ⟨"a", first, by decide, hstands "a", _, List.mem_cons_self, _, List.mem_cons_self, rfl⟩
  have hget := gets "a"
  have hget' := gets "a:b"
  have hrows := rows "a"
  rw [hstands] at hget hget' hrows
  exact ⟨regular, hget, hrows, hrefused, ((refused second _ hrefused).1 "a:b").trans hget'⟩

end Conveyor.WorkflowStore
