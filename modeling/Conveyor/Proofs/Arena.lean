import Conveyor.Arena
import Conveyor.Proofs.Keyed

/-!
# What the arena finds

When no two pipelines of a list of workflows have one id, the arena keeps every pipeline with its
workflow, and finds by source just the active pipelines of active workflows, in their order.
-/

namespace Conveyor.Arena

variable {ws : List Workflow}

theorem mem_owned {p : Pipeline} {w : Workflow} : (p, w) ∈ owned ws ↔ w ∈ ws ∧ p ∈ w.pipelines := by
  rw [owned, List.mem_flatMap]
  constructor
  · rintro ⟨w', hw, hpw⟩
    obtain ⟨p', hp, heq⟩ := List.mem_map.mp hpw
    obtain ⟨rfl, rfl⟩ := Prod.mk.inj heq
    exact ⟨hw, hp⟩
  · rintro ⟨hw, hp⟩
    exact ⟨w, hw, List.mem_map.mpr ⟨p, hp, rfl⟩⟩

theorem map_owned (ws : List Workflow) :
    (owned ws).map (·.1) = ws.flatMap fun w => w.pipelines := by
  simp [owned, List.map_flatMap, Function.comp_def]

/-- The active pipelines that take the records of a source, in the order in which the workflows have
them. -/
def takers (ws : List Workflow) (key : SourceKey) : List (Pipeline × Workflow) :=
  (owned ws).filter fun pw => isRouted pw && pw.1.sourceKey = key

theorem takers_eq_flatMap (ws : List Workflow) (key : SourceKey) :
    takers ws key = ws.flatMap fun w =>
      (w.pipelines.filter fun p =>
        w.header.isActive && p.delivery.isActive && p.sourceKey = key).map fun p => (p, w) := by
  simp only [takers, owned, List.filter_flatMap, List.filter_map]
  rfl

section

variable (distinct : ((owned ws).map (·.1.id)).Nodup)
include distinct

/-- Nothing is replaced while the arena is filled. -/
theorem pipelines_ofWorkflows :
    (ofWorkflows ws).pipelines = (owned ws).map fun pw => (pw.1.id, pw) := by
  apply Keyed.ofPairs_eq
  rw [Keyed.keys, List.map_map]
  exact distinct

theorem get?_pipelines_iff {id : String} {pw : Pipeline × Workflow} :
    (ofWorkflows ws).pipelines.get? id = some pw ↔ pw ∈ owned ws ∧ pw.1.id = id := by
  have hkeys : (ofWorkflows ws).pipelines.keys.Nodup := by
    rw [pipelines_ofWorkflows distinct, Keyed.keys, List.map_map]
    exact distinct
  rw [Keyed.get?_eq_some_iff hkeys, pipelines_ofWorkflows distinct, List.mem_map]
  constructor
  · rintro ⟨x, hx, heq⟩
    obtain ⟨rfl, rfl⟩ := Prod.mk.inj heq
    exact ⟨hx, rfl⟩
  · rintro ⟨hpw, rfl⟩
    exact ⟨pw, hpw, rfl⟩

theorem forSource_ofWorkflows (key : SourceKey) :
    (ofWorkflows ws).forSource key = takers ws key := by
  -- by induction on the pipelines that are routed; the ids of all of them are bound
  have hall : ∀ l : List (Pipeline × Workflow), (∀ pw ∈ l, pw ∈ owned ws) →
      (((l.filter isRouted).map fun pw => (pw.1.sourceKey, pw.1.id)).filter
        fun x => x.1 = key).filterMap (fun x => (ofWorkflows ws).pipelines.get? x.2) =
          l.filter fun pw => isRouted pw && pw.1.sourceKey = key := by
    intro l hl
    induction l with
    | nil => rfl
    | cons pw l ih =>
      have hrest := ih fun x hx => hl x (List.mem_cons_of_mem _ hx)
      have hpw := (get?_pipelines_iff distinct).mpr ⟨hl pw List.mem_cons_self, rfl⟩
      cases hrouted : isRouted pw with
      | false =>
        rw [List.filter_cons_of_neg (by simp [hrouted]), List.filter_cons_of_neg (by simp [hrouted])]
        exact hrest
      | true =>
        rw [List.filter_cons_of_pos hrouted, List.map_cons]
        by_cases hkey : pw.1.sourceKey = key
        · rw [List.filter_cons_of_pos (by simpa using hkey), List.filter_cons_of_pos
            (by simp [hrouted, hkey]), ← hrest]
          exact List.filterMap_cons_some hpw
        · rw [List.filter_cons_of_neg (by simpa using hkey), List.filter_cons_of_neg (by simp [hkey]),
            hrest]
  exact hall (owned ws) fun _ h => h

theorem found_iff {id : String} {p : Pipeline} {w : Workflow} :
    ((ofWorkflows ws).pipeline? id = some p ∧ (ofWorkflows ws).workflowOf? id = some w) ↔
      w ∈ ws ∧ p ∈ w.pipelines ∧ p.id = id := by
  have hboth : ((ofWorkflows ws).pipeline? id = some p ∧ (ofWorkflows ws).workflowOf? id = some w) ↔
      (ofWorkflows ws).pipelines.get? id = some (p, w) := by
    rw [pipeline?, workflowOf?]
    cases (ofWorkflows ws).pipelines.get? id with
    | none => simp
    | some pw => simp [Prod.ext_iff]
  rw [hboth, get?_pipelines_iff distinct, mem_owned, and_assoc]

/-- What an arena answers about workflows whose pipelines have different ids. A source finds the
active pipelines of the active workflows, each once and in order; an id finds its pipeline and the
workflow of it, active or not; and the size is the number of all pipelines. -/
theorem ofWorkflows_answers :
    (∀ key, (ofWorkflows ws).forSource key = (ws.flatMap fun w =>
        (w.pipelines.filter fun p =>
          w.header.isActive && p.delivery.isActive && p.sourceKey = key).map fun p => (p, w)) ∧
      (((ofWorkflows ws).forSource key).map (·.1.id)).Nodup) ∧
    (∀ w ∈ ws, ∀ p ∈ w.pipelines, (ofWorkflows ws).pipeline? p.id = some p ∧
      (ofWorkflows ws).workflowOf? p.id = some w) ∧
    (∀ id, (∀ w ∈ ws, ∀ p ∈ w.pipelines, p.id ≠ id) →
      (ofWorkflows ws).pipeline? id = none ∧ (ofWorkflows ws).workflowOf? id = none) ∧
    (ofWorkflows ws).length = (ws.flatMap fun w => w.pipelines).length := by
  refine ⟨fun key => ⟨?_, ?_⟩, ?_, ?_, ?_⟩
  · rw [forSource_ofWorkflows distinct, takers_eq_flatMap]
  · rw [forSource_ofWorkflows distinct]
    exact distinct.sublist (List.filter_sublist.map _)
  · intro w hw p hp
    exact (found_iff distinct).mpr ⟨hw, hp, rfl⟩
  · intro id hnone
    cases hfound : (ofWorkflows ws).pipelines.get? id with
    | none => simp [pipeline?, workflowOf?, hfound]
    | some pw =>
      obtain ⟨hmem, hid⟩ := (get?_pipelines_iff distinct).mp hfound
      obtain ⟨hw, hp⟩ := mem_owned.mp hmem
      exact absurd hid (hnone pw.2 hw pw.1 hp)
  · rw [length, pipelines_ofWorkflows distinct, List.length_map, ← map_owned, List.length_map]

end

/-- Workflows with pipelines of both kinds of source, one of them at rest, and a workflow at rest. -/
def meters : List Workflow :=
  let meter (id : String) : Pipeline := { id := id, sourceKind := .senderApp, applicationId := some 7 }
  [ { header := { id := "wf", name := "meters" }
      pipelines := [meter "wf:a", { meter "wf:b" with delivery := { isActive := false } },
        { id := "wf:c", sourceKind := .mqttSource, mqttSourceId := some 7 }] },
    { header := { id := "rest", name := "at rest", isActive := false }, pipelines := [meter "rest:a"] },
    { header := { id := "spare", name := "spare" }, pipelines := [meter "spare:a"] } ]

theorem meters_answers :
    ((ofWorkflows meters).forSource ⟨.senderApp, some 7⟩).map (·.1.id) = ["wf:a", "spare:a"] ∧
      ((ofWorkflows meters).forSource ⟨.mqttSource, some 7⟩).map (·.1.id) = ["wf:c"] ∧
      ((ofWorkflows meters).workflowOf? "rest:a").map (·.id) = some "rest" ∧
      (ofWorkflows meters).length = 5 := by
  have hdistinct : ((owned meters).map (·.1.id)).Nodup := by decide
  obtain ⟨hsource, hid, -, hlength⟩ := ofWorkflows_answers hdistinct
  refine ⟨?_, ?_, ?_, hlength⟩
  · rw [(hsource _).1]
    decide
  · rw [(hsource _).1]
    decide
  · have hrest := hid meters[1] (by simp [meters]) meters[1].pipelines[0] (by simp [meters])
    exact congrArg (Option.map (·.id)) hrest.2

end Conveyor.Arena
