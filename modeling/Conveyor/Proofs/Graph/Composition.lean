import Conveyor.Proofs.Graph.Boundary

/-!
# Compiling edge by edge

What is wrong with a part of a graph does not depend on where the part is; only the place of an issue
does (`Validation.IsLocal`). So every edge is judged as if it was the only one: a graph compiles
exactly if it does with each of its edges alone, and otherwise the issues of the edges are reported
one edge after the other (`compile_edgewise`).
-/

namespace Conveyor

open Outcome

/-! ## Issues of parts -/

/-- An issue of a part as one of the whole, with the part at the place. -/
def Issue.below (place : Place) (issue : Issue) : Issue :=
  { issue with place := place ++ issue.place }

namespace Validation

/-- What is found at a place is what is found anywhere, below the place. -/
def IsLocal (find : Place → List Issue) : Prop :=
  ∀ outer inner, find (outer ++ inner) = (find inner).map (Issue.below outer)

namespace IsLocal

variable {find find' : Place → List Issue}

theorem nothing : IsLocal fun _ => [] := fun _ _ => rfl

theorem single (rest : Place) (cause : IssueCause) :
    IsLocal fun place => [⟨place ++ rest, cause⟩] := by
  intro outer inner
  simp [Issue.below]

theorem issueIf (wrong : Bool) (rest : Place) (cause : IssueCause) :
    IsLocal fun place => Validation.issueIf wrong (place ++ rest) cause := by
  cases wrong with
  | false => exact nothing
  | true => exact single rest cause

theorem append (h : IsLocal find) (h' : IsLocal find') :
    IsLocal fun place => find place ++ find' place := by
  intro outer inner
  dsimp only
  rw [h, h', List.map_append]

theorem inside (h : IsLocal find) (rest : Place) : IsLocal fun place => find (place ++ rest) := by
  intro outer inner
  dsimp only
  rw [List.append_assoc, h]

theorem flatMap {α : Type} {items : List α} {find : α → Place → List Issue}
    (h : ∀ a, IsLocal (find a)) : IsLocal fun place => items.flatMap fun a => find a place := by
  intro outer inner
  dsimp only
  rw [List.map_flatMap]
  exact congrArg (items.flatMap ·) (funext fun a => h a outer inner)

end IsLocal

/-- The same for what cannot always be told. -/
def IsLocalCheck (check : Place → Except Fault (List Issue)) : Prop :=
  ∀ outer inner, check (outer ++ inner) = List.map (Issue.below outer) <$> check inner

namespace IsLocalCheck

theorem ok {find : Place → List Issue} (h : IsLocal find) :
    IsLocalCheck fun place => .ok (find place) := by
  intro outer inner
  dsimp only
  rw [h]
  rfl

/-- What is found can be told once something is known that has no place. -/
theorem known {α : Type} {x : Except Fault α} {find : α → Place → List Issue}
    (h : ∀ a, IsLocal (find a)) :
    IsLocalCheck fun place => x >>= fun a => pure (find a place) := by
  intro outer inner
  cases x with
  | error e => rfl
  | ok a => exact congrArg Except.ok (h a outer inner)

/-- One check after another, with what is found at once before both. -/
theorem before {check : Place → Except Fault (List Issue)} {find : Place → List Issue}
    (hcheck : IsLocalCheck check) (h : IsLocal find) :
    IsLocalCheck fun place => check place >>= fun issues => pure (find place ++ issues) := by
  intro outer inner
  dsimp only
  rw [hcheck]
  cases check inner with
  | error e => rfl
  | ok issues =>
    refine congrArg Except.ok ?_
    rw [h, List.map_append]

theorem before₂ {check check' : Place → Except Fault (List Issue)} {find : Place → List Issue}
    (hcheck : IsLocalCheck check) (hcheck' : IsLocalCheck check') (h : IsLocal find) :
    IsLocalCheck fun place => check place >>= fun issues => check' place >>= fun issues' =>
      pure (find place ++ issues ++ issues') := by
  intro outer inner
  dsimp only
  rw [hcheck, hcheck']
  cases check inner with
  | error e => rfl
  | ok issues =>
    cases check' inner with
    | error e => rfl
    | ok issues' =>
      refine congrArg Except.ok ?_
      rw [h, List.map_append, List.map_append]

theorem flatten_mapM {α : Type} {items : List α} {check : α → Place → Except Fault (List Issue)}
    (h : ∀ a, IsLocalCheck (check a)) :
    IsLocalCheck fun place =>
      items.mapM (fun a => check a place) >>= fun issues => pure issues.flatten := by
  intro outer inner
  dsimp only
  have hmap : items.mapM (fun a => check a (outer ++ inner)) =
      List.map (List.map (Issue.below outer)) <$> items.mapM fun a => check a inner := by
    induction items with
    | nil => rfl
    | cons a items ih =>
      rw [List.mapM_cons, List.mapM_cons, ih, h]
      cases check a inner with
      | error e => rfl
      | ok issues => cases items.mapM fun a => check a inner <;> rfl
  rw [hmap]
  cases items.mapM fun a => check a inner with
  | error e => rfl
  | ok issues => exact congrArg Except.ok (List.map_flatten ..).symm

end IsLocalCheck

/-! ## Everything that is found is found wherever it is -/

theorem isLocal_mappingIssues (before : List FieldMapping) (m : FieldMapping) :
    IsLocal fun here => mappingIssues here before m := by
  refine .append (.append ?_ (.issueIf _ _ _)) ?_
  · cases position? (·.destinationColumn = m.destinationColumn) before with
    | some first => exact .single _ _
    | none => exact .nothing
  · cases m.transformType with
    | some name => exact .issueIf _ _ _
    | none => exact .nothing

theorem isLocal_mappingsIssues (ms : List FieldMapping) :
    IsLocal fun place => mappingsIssues place ms :=
  .flatMap fun x => (isLocal_mappingIssues (ms.take x.2) x.1).inside _

theorem isLocal_queryIssues (q : QueryShape) : IsLocal fun place => queryIssues place q := by
  refine .append (.append (.append (.append ?_ (.issueIf _ _ _)) (.issueIf _ _ _))
    (.issueIf _ _ _)) ?_
  · cases Statement.operationIssue? q.operation q.dialect q.primaryKey with
    | some cause => exact .single _ _
    | none => exact .nothing
  · cases q.primaryKey with
    | some key => exact .issueIf _ _ _
    | none => exact .nothing

theorem isLocal_restIssues (s : Step) : IsLocal fun place => restIssues place s := by
  refine .append (.issueIf _ _ _) ?_
  cases s.rest.bodyTemplate with
  | some t => exact .issueIf _ _ _
  | none => exact .nothing

theorem isLocal_databaseIssues (s : Step) : IsLocal fun place => databaseIssues place s :=
  .append (.issueIf _ _ _) (isLocal_queryIssues _)

theorem isLocal_sapIssues (s : Step) : IsLocal fun place => sapIssues place s :=
  .append (.issueIf _ _ _) (isLocal_queryIssues _)

theorem isLocal_branchIssues (rest : Place) (count : Nat) (target : Option Int) :
    IsLocal fun place => branchIssues (place ++ rest) count target := by
  cases target with
  | some n => exact .issueIf _ _ _
  | none => exact .nothing

theorem isLocal_conditionIssues (count : Nat) (b : BranchSettings) :
    IsLocalCheck fun place => conditionIssues place count b := by
  refine .known fun problems => .append (.append ?_ (isLocal_branchIssues _ _ _))
    (isLocal_branchIssues _ _ _)
  intro outer inner
  simp [Issue.below]

theorem isLocal_kindIssues (count : Nat) (s : Step) :
    IsLocalCheck fun place => kindIssues place count s := by
  unfold kindIssues
  cases s.kind with
  | restCall => exact .ok (isLocal_restIssues s)
  | dbQuery => exact .ok (isLocal_databaseIssues s)
  | sapQuery => exact .ok (isLocal_sapIssues s)
  | transform => exact .ok (.issueIf _ _ _)
  | condition => exact isLocal_conditionIssues count s.branch
  | delay => exact .ok (.issueIf _ _ _)

theorem isLocal_stepIssues (count : Nat) (s : Step) :
    IsLocalCheck fun place => stepIssues place count s :=
  .before (isLocal_kindIssues count s)
    (.append (.append (.issueIf _ _ _) (.issueIf _ _ _)) (isLocal_mappingsIssues _))

theorem isLocal_stepsIssues (count : Nat) (steps : List Step) :
    IsLocalCheck fun place => stepsIssues place count steps := by
  refine .flatten_mapM fun x outer inner => ?_
  dsimp only
  rw [List.append_assoc]
  exact isLocal_stepIssues count x.1 outer _

theorem isLocal_sourceIssues (p : Pipeline) : IsLocal fun place => sourceIssues place p :=
  .issueIf _ _ _

theorem isLocal_destinationIssues (p : Pipeline) :
    IsLocal fun place => destinationIssues place p := by
  unfold destinationIssues
  cases p.destinationKind with
  | some k => exact .issueIf _ _ _
  | none => exact .issueIf _ _ _

theorem isLocal_finalIssues (count : Nat) (p : Pipeline) :
    IsLocalCheck fun place => finalIssues place count p := by
  unfold finalIssues
  cases p.destinationStep? (count + 1) with
  | none => exact .ok .nothing
  | some s =>
    dsimp only
    split
    · exact .ok (isLocal_mappingsIssues _)
    · exact isLocal_stepIssues count s

/-- What is wrong with a pipeline is the same wherever it is. -/
theorem isLocal_pipelineIssues (p : Pipeline) :
    IsLocalCheck fun place => pipelineIssues place p :=
  .before₂ (isLocal_stepsIssues _ _) (isLocal_finalIssues _ p)
    (.append (.append (isLocal_sourceIssues p) (isLocal_destinationIssues p)) (.issueIf _ _ _))

end Validation

/-! ## Edges -/

namespace AuthoringGraph

variable {g : AuthoringGraph} {e : GraphEdge} {w : Workflow}

/-- The graph with this edge alone. -/
def alone (g : AuthoringGraph) (e : GraphEdge) : AuthoringGraph := { g with edges := [e] }

/-- The graph without edges. -/
def bare (g : AuthoringGraph) : AuthoringGraph := { g with edges := [] }

/-- What comes of an edge, wherever it is: its pipeline, if it has one, and what is wrong with it. -/
def judge (g : AuthoringGraph) (e : GraphEdge) : Except Fault (Option Pipeline × List Issue) :=
  match g.pipeline? [] e with
  | .error issue => .ok (none, [issue])
  | .ok p => (some p, ·) <$> Validation.pipelineIssues [] p

/-- What is wrong with an edge is the same wherever it is. -/
theorem compileEdge_eq (g : AuthoringGraph) (e : GraphEdge) (i : Nat) :
    g.compileEdge e i =
      (fun r => (r.1, r.2.map (Issue.below [.field "edges", .index i]))) <$> g.judge e := by
  have hpipeline : ∀ place, g.pipeline? place e =
      (g.pipeline? [] e).mapError (Issue.below place) := by
    intro place
    unfold pipeline?
    split
    · rfl
    · split
      · split <;> rfl
      · split <;> rfl
  unfold compileEdge judge
  dsimp only
  rw [hpipeline]
  cases g.pipeline? [] e with
  | error issue => rfl
  | ok p =>
    have hissues := Validation.isLocal_pipelineIssues p [.field "edges", .index i] []
    dsimp only at hissues
    rw [List.append_nil] at hissues
    show (Validation.pipelineIssues _ p >>= fun issues => pure (some p, issues)) =
      _ <$> _ <$> Validation.pipelineIssues [] p
    rw [hissues]
    cases Validation.pipelineIssues [] p <;> rfl

/-- What is wrong with an edge that can be judged. -/
def edgeIssues (g : AuthoringGraph) (e : GraphEdge) : List Issue :=
  match g.judge e with
  | .ok (_, issues) => issues
  | .error _ => []

/-- The pipeline of an edge that can be judged, if it has one. -/
def edgePipeline? (g : AuthoringGraph) (e : GraphEdge) : Option Pipeline :=
  match g.judge e with
  | .ok (p?, _) => p?
  | .error _ => none

theorem compileEdges_eq {edges : List GraphEdge} (judged : ∀ e ∈ edges, ∃ r, g.judge e = .ok r)
    (k : Nat) :
    (edges.zipIdx k).mapM (fun (e, i) => g.compileEdge e i) =
      .ok ((edges.zipIdx k).map fun (e, i) =>
        (g.edgePipeline? e, (g.edgeIssues e).map (Issue.below [.field "edges", .index i]))) := by
  induction edges generalizing k with
  | nil => rfl
  | cons e edges ih =>
    obtain ⟨⟨r, hr⟩, hrest⟩ := List.forall_mem_cons.mp judged
    rw [List.zipIdx_cons, List.mapM_cons, ih hrest, List.map_cons]
    dsimp only
    rw [compileEdge_eq, edgePipeline?, edgeIssues, hr]
    rfl

/-- Everything that is wrong with a graph whose edges can be judged. -/
def issuesOf (g : AuthoringGraph) : List Issue :=
  g.nodeIssues
    ++ (g.edges.zipIdx.flatMap fun (e, i) =>
      (g.edgeIssues e).map (Issue.below [.field "edges", .index i]))
    ++ Validation.retentionIssues [.field "workflow"] g.header

theorem compile_eq (judged : ∀ e ∈ g.edges, ∃ r, g.judge e = .ok r) :
    g.compile =
      if g.issuesOf.isEmpty then .ok ⟨g.header, g.edges.filterMap g.edgePipeline?⟩
      else .error (.config g.issuesOf) := by
  have hpipelines : g.edges.zipIdx.filterMap (fun x => g.edgePipeline? x.1) =
      g.edges.filterMap g.edgePipeline? := by
    have hedges := List.filterMap_map (f := fun x : GraphEdge × Nat => x.1) (g := g.edgePipeline?)
      (l := g.edges.zipIdx)
    rw [List.zipIdx_map_fst] at hedges
    exact hedges.symm
  unfold compile
  rw [compileEdges_eq judged]
  show (if (_ : List Issue).isEmpty then _ else _) = _
  rw [List.flatMap_map, List.filterMap_map, ← hpipelines]
  rfl

theorem ends_of_judged (judged : ∀ e ∈ g.edges, ∃ r, g.judge e = .ok r) :
    ∀ fault, g.compile ≠ .error (.fault fault) := by
  intro fault h
  rw [compile_eq judged] at h
  split at h <;> cases h

/-- Every edge can be judged if the graph can. -/
theorem judged_of_ends (h : ∀ fault, g.compile ≠ .error (.fault fault)) :
    ∀ e ∈ g.edges, ∃ r, g.judge e = .ok r := by
  rcases g.compile_cases with ⟨-, hfault⟩ | ⟨hjudgeable, -⟩
  · exact absurd hfault (h _)
  · intro e he
    obtain ⟨r, hr⟩ := (g.compileEdge_failsIff e 0).exists_ok
      fun ⟨p, hp⟩ => hjudgeable ⟨e, he, p, hp⟩
    rw [compileEdge_eq, map_eq_ok_iff] at hr
    obtain ⟨r', hr', -⟩ := hr
    exact ⟨r', hr'⟩

/-! ## Graphs of one edge -/

/-- The issues that are reported of a graph. -/
def reported (g : AuthoringGraph) : List Issue :=
  match g.compile with
  | .error (.config issues) => issues
  | _ => []

theorem reported_eq (judged : ∀ e ∈ g.edges, ∃ r, g.judge e = .ok r) :
    g.reported = g.issuesOf := by
  rw [reported, compile_eq judged]
  by_cases h : g.issuesOf = []
  · simp [h]
  · simp [h]

end AuthoringGraph

/-- Whether an issue is one of an edge. -/
def Issue.isOfEdge (issue : Issue) : Bool := issue.place.head? = some (.field "edges")

/-- An issue of an edge as one of the edge of this number. -/
def Issue.atEdge (i : Nat) (issue : Issue) : Issue :=
  { issue with place := [.field "edges", .index i] ++ issue.place.drop 2 }

namespace AuthoringGraph

variable {g : AuthoringGraph} {e : GraphEdge} {w : Workflow}

theorem judged_alone (judged : ∃ r, g.judge e = .ok r) :
    ∀ e' ∈ (g.alone e).edges, ∃ r, (g.alone e).judge e' = .ok r := by
  intro e' he'
  obtain rfl : e' = e := List.mem_singleton.mp he'
  exact judged

/-- The issues of an edge are found again in what is reported of the graph with this edge alone. -/
theorem reported_alone (judged : ∃ r, g.judge e = .ok r) (i : Nat) :
    ((g.alone e).reported.filter Issue.isOfEdge).map (Issue.atEdge i) =
      (g.edgeIssues e).map (Issue.below [.field "edges", .index i]) := by
  have helsewhere : ∀ wrong mark rest cause, mark ≠ .field "edges" →
      (Validation.issueIf wrong (mark :: rest) cause).filter Issue.isOfEdge = [] := by
    intro wrong mark rest cause hmark
    cases wrong <;> simp [Validation.issueIf, Issue.isOfEdge, hmark]
  have hnodes : (g.alone e).nodeIssues.filter Issue.isOfEdge = [] := by
    rw [nodeIssues, List.filter_flatMap]
    exact List.flatMap_eq_nil_iff.mpr fun x _ => helsewhere _ _ _ _ (by decide)
  have hretention : (Validation.retentionIssues [.field "workflow"] (g.alone e).header).filter
      Issue.isOfEdge = [] := helsewhere _ _ _ _ (by decide)
  have hedges : ((g.edgeIssues e).map (Issue.below [.field "edges", .index 0])).filter
      Issue.isOfEdge = (g.edgeIssues e).map (Issue.below [.field "edges", .index 0]) := by
    refine List.filter_eq_self.mpr fun issue hissue => ?_
    obtain ⟨own, -, rfl⟩ := List.mem_map.mp hissue
    rfl
  have hissues : (g.alone e).issuesOf = (g.alone e).nodeIssues ++
      (g.edgeIssues e).map (Issue.below [.field "edges", .index 0]) ++
      Validation.retentionIssues [.field "workflow"] (g.alone e).header :=
    congrArg (_ ++ · ++ _) (List.flatMap_singleton (fun x : GraphEdge × Nat =>
      (g.edgeIssues x.1).map (Issue.below [.field "edges", .index x.2])) (e, 0))
  rw [reported_eq (judged_alone judged), hissues, List.filter_append, List.filter_append, hnodes,
    hedges, hretention, List.append_nil, List.nil_append, List.map_map]
  rfl

theorem draws_alone {e' : GraphEdge} {p : Pipeline} : (g.alone e).Draws e' p ↔ g.Draws e' p := by
  have hsame : (g.alone e).pipeline? [] e' = g.pipeline? [] e' := rfl
  rw [← @pipeline?_eq_ok_iff (g.alone e) [], hsame, pipeline?_eq_ok_iff]

/-- A graph compiles to the pipelines of the graphs with its edges alone. -/
theorem compile_eq_ok_iff_alone :
    g.compile = .ok w ↔ g.bare.compile = .ok ⟨w.header, []⟩ ∧
      List.Forall₂ (fun e p => (g.alone e).compile = .ok ⟨w.header, [p]⟩) g.edges w.pipelines := by
  have halone : ∀ e p, g.bare.Compiles ⟨w.header, []⟩ →
      ((g.alone e).compile = .ok ⟨w.header, [p]⟩ ↔ g.Draws e p ∧ p.IsValid) := by
    intro e p hbare
    rw [compile_eq_ok_iff, ← draws_alone (e := e)]
    constructor
    · intro h
      exact (List.forall₂_cons.mp h.pipelines).1
    · intro h
      exact ⟨hbare.nodes, hbare.retention, hbare.header, .cons h .nil⟩
  rw [compile_eq_ok_iff, compile_eq_ok_iff]
  constructor
  · intro h
    have hbare : g.bare.Compiles ⟨w.header, []⟩ := ⟨h.nodes, h.retention, h.header, .nil⟩
    exact ⟨hbare, h.pipelines.imp fun e p => (halone e p hbare).mpr⟩
  · rintro ⟨hbare, halong⟩
    exact ⟨hbare.nodes, hbare.retention, hbare.header,
      halong.imp fun e p => (halone e p hbare).mp⟩

/-- A graph with one edge compiles to one pipeline. -/
theorem exists_pipeline_of_alone (h : (g.alone e).compile = .ok w) :
    w.header = g.header ∧ ∃ p, (g.alone e).compile = .ok ⟨g.header, [p]⟩ := by
  have hcompiles := compile_eq_ok_iff.mp h
  obtain ⟨p, rest, -, hrest, hpipelines⟩ := List.forall₂_cons_left_iff.mp hcompiles.pipelines
  obtain rfl := List.forall₂_nil_left_iff.mp hrest
  refine ⟨hcompiles.header, p, ?_⟩
  rw [h, ← hpipelines]
  exact congrArg (fun header => Except.ok (Workflow.mk header w.pipelines)) hcompiles.header

theorem exists_forall₂ {α β : Type} {R : α → β → Prop} {as : List α}
    (h : ∀ a ∈ as, ∃ b, R a b) : ∃ bs, List.Forall₂ R as bs := by
  induction as with
  | nil => exact ⟨[], .nil⟩
  | cons a as ih =>
    obtain ⟨⟨b, hb⟩, hrest⟩ := List.forall_mem_cons.mp h
    obtain ⟨bs, hbs⟩ := ih hrest
    exact ⟨b :: bs, .cons hb hbs⟩

/-- A graph compiles if it does without edges and with each of its edges alone. -/
theorem exists_compile_iff_alone :
    (∃ w, g.compile = .ok w) ↔
      (∃ w, g.bare.compile = .ok w) ∧ ∀ e ∈ g.edges, ∃ w, (g.alone e).compile = .ok w := by
  constructor
  · rintro ⟨w, hw⟩
    obtain ⟨hbare, halong⟩ := compile_eq_ok_iff_alone.mp hw
    refine ⟨⟨_, hbare⟩, fun e he => ?_⟩
    obtain ⟨p, -, hp⟩ := exists_of_mem halong.flip he
    exact ⟨_, hp⟩
  · rintro ⟨⟨w, hbare⟩, halong⟩
    have hcompiles := compile_eq_ok_iff.mp hbare
    have hheader : w.header = g.header := hcompiles.header
    obtain rfl : w = ⟨g.header, []⟩ := by
      rw [← hheader, ← List.forall₂_nil_left_iff.mp hcompiles.pipelines]
    obtain ⟨ps, hps⟩ := exists_forall₂ fun e he =>
      (exists_pipeline_of_alone (halong e he).choose_spec).2
    exact ⟨⟨g.header, ps⟩, compile_eq_ok_iff_alone.mpr ⟨hbare, hps⟩⟩

/-- Where no fault leaves validation, a graph compiles exactly if it does without edges and with each of
its edges alone, and then to their pipelines in the order of the edges. Otherwise the issues of its
nodes are reported, then for each edge in order those that are reported of it alone, with its own
number, and last the retention. -/
theorem compile_edgewise (ends : ∀ fault, g.compile ≠ .error (.fault fault)) :
    ((∃ w, g.compile = .ok w) ↔
      (∃ w, g.bare.compile = .ok w) ∧ ∀ e ∈ g.edges, ∃ w, (g.alone e).compile = .ok w) ∧
    (∀ w, g.compile = .ok w → w.header = g.header ∧
      List.Forall₂ (fun e p => (g.alone e).compile = .ok ⟨g.header, [p]⟩) g.edges w.pipelines) ∧
    (∀ e ∈ g.edges, ∀ fault, (g.alone e).compile ≠ .error (.fault fault)) ∧
    ((∀ w, g.compile ≠ .ok w) → g.compile = .error (.config (
      g.nodeIssues
        ++ (g.edges.zipIdx.flatMap fun (e, i) =>
          ((g.alone e).reported.filter Issue.isOfEdge).map (Issue.atEdge i))
        ++ Validation.retentionIssues [.field "workflow"] g.header))) := by
  have judged := judged_of_ends ends
  refine ⟨exists_compile_iff_alone, fun w hw => ?_, fun e he fault hfault => ?_, fun hfails => ?_⟩
  · have hheader := (compile_eq_ok_iff.mp hw).header
    have halong := (compile_eq_ok_iff_alone.mp hw).2
    rw [hheader] at halong
    exact ⟨hheader, halong⟩
  · exact ends_of_judged (judged_alone (judged e he)) fault hfault
  · have hissues : g.issuesOf = g.nodeIssues
        ++ (g.edges.zipIdx.flatMap fun (e, i) =>
          ((g.alone e).reported.filter Issue.isOfEdge).map (Issue.atEdge i))
        ++ Validation.retentionIssues [.field "workflow"] g.header := by
      refine congrArg (_ ++ · ++ _) (List.flatMap_congr fun x hx => ?_)
      have hedge := List.mem_of_getElem? (List.mem_zipIdx_iff_getElem?.mp hx)
      exact (reported_alone (judged x.1 hedge) x.2).symm
    have hcompile := compile_eq judged
    rw [← hissues]
    split at hcompile
    · exact absurd hcompile (hfails _)
    · exact hcompile

/-- A graph with a node drawn twice and no retention, whose edges lead from the application to the
destination, from nowhere, and nowhere. -/
def faulty : AuthoringGraph where
  header := { id := "wf-1", name := "Sensors", retentionHours := .zero }
  nodes :=
    [{ id := "app", kind := .source .senderApp, refId := 7 },
      { id := "api", kind := .destination .rest, refId := 5 },
      { id := "app", kind := .source .senderApp, refId := 7 }]
  edges :=
    [{ id := "e1", source := "app", target := some "api" }, { id := "e2", source := "ghost" },
      { id := "e3", source := "app" }]

/-- Each of the two edges that are wrong is reported with its own number, between the node and the
retention. -/
theorem faulty_reported : faulty.compile = .error (.config [
    ⟨[.field "nodes", .index 2, .field "id"], .duplicateNode "app"⟩,
    ⟨[.field "edges", .index 1, .field "source"], .notASource "ghost"⟩,
    ⟨[.field "edges", .index 2, .field "target"], .edgeWithoutDestination⟩,
    ⟨[.field "workflow", .field "retentionHours"], .retention⟩]) := by
  have hfirst : faulty.judge { id := "e1", source := "app", target := some "api" } =
      .ok (some (lane "e1"), []) := by
    show (some (lane "e1"), ·) <$> Validation.pipelineIssues [] (lane "e1") = _
    rw [Validation.pipelineIssues_eq_nil_iff_isValid.mpr (lane_isValid "e1")]
    rfl
  have hsecond : faulty.judge { id := "e2", source := "ghost" } =
      .ok (none, [⟨[.field "source"], .notASource "ghost"⟩]) := rfl
  have hthird : faulty.judge { id := "e3", source := "app" } =
      .ok (none, [⟨[.field "target"], .edgeWithoutDestination⟩]) := rfl
  have judged : ∀ e ∈ faulty.edges, ∃ r, faulty.judge e = .ok r :=
    List.forall_mem_cons.mpr ⟨⟨_, hfirst⟩, List.forall_mem_cons.mpr ⟨⟨_, hsecond⟩,
      List.forall_mem_singleton.mpr ⟨_, hthird⟩⟩⟩
  have hfails : ∀ w, faulty.compile ≠ .ok w := by
    intro w hw
    have hnodes : ¬(faulty.nodes.map (·.id)).Nodup := by decide
    exact hnodes (compile_eq_ok_iff.mp hw).nodes
  have hretention : faulty.header.retentionHours.le .zero = true := by decide +kernel
  rw [(compile_edgewise (ends_of_judged judged)).2.2.2 hfails]
  show Except.error (Failure.config (_ ++ (_ ++ (_ ++ (_ ++ []))) ++ _)) = _
  dsimp only
  rw [reported_alone ⟨_, hfirst⟩, reported_alone ⟨_, hsecond⟩, reported_alone ⟨_, hthird⟩,
    edgeIssues, edgeIssues, edgeIssues, hfirst, hsecond, hthird, Validation.retentionIssues,
    hretention]
  rfl

end AuthoringGraph
end Conveyor
