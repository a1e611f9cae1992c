import Conveyor.Proofs.Pipeline.Legible
import Conveyor.Proofs.Value.Alike

/-!
# Workflows but for the order of names

Two workflows are alike if they differ in nothing but the order of the names in the objects among
their settings. A workflow that has a document is alike what is loaded from it, and two workflows
have the same document exactly if they are alike.
-/

namespace Conveyor

/-! ## Alike -/

/-- Objects that are equal but for the order of names. -/
def Fields.Alike (fs gs : Fields) : Prop := (Value.object fs).Alike (.object gs)

/-- Names that have the same value in both lists. -/
def Keyed.Alike {α : Type} (m n : Keyed α) : Prop := ∀ name, get? name m = get? name n

/-- Mappings that are equal but for the order of names in their default values. -/
@[mk_iff]
structure FieldMapping.Alike (m n : FieldMapping) : Prop where
  default : m.defaultValue.Alike n.defaultValue
  others : n = { m with defaultValue := n.defaultValue }

@[mk_iff]
structure BranchSettings.Alike (b c : BranchSettings) : Prop where
  expression : Option.Rel Fields.Alike b.expression c.expression
  others : c = { b with expression := c.expression }

/-- Steps that are equal but for the order of names in the objects among their settings. -/
@[mk_iff]
structure Step.Alike (s t : Step) : Prop where
  inputMapping : Option.Rel Fields.Alike s.inputMapping t.inputMapping
  fieldMappings : List.Forall₂ FieldMapping.Alike s.fieldMappings t.fieldMappings
  renames : Option.Rel Keyed.Alike s.renames t.renames
  branch : s.branch.Alike t.branch
  others : t = { s with
    inputMapping := t.inputMapping
    fieldMappings := t.fieldMappings
    renames := t.renames
    branch := t.branch }

@[mk_iff]
structure Delivery.Alike (d e : Delivery) : Prop where
  fieldMappings : List.Forall₂ FieldMapping.Alike d.fieldMappings e.fieldMappings
  others : e = { d with fieldMappings := e.fieldMappings }

@[mk_iff]
structure Pipeline.Alike (p q : Pipeline) : Prop where
  delivery : p.delivery.Alike q.delivery
  steps : List.Forall₂ Step.Alike p.steps q.steps
  others : q = { p with delivery := q.delivery, steps := q.steps }

/-- Workflows that are equal but for the order of names in the objects among their settings: the
pipelines, the steps and the mappings are the same one by one, and so is everything in them. -/
@[mk_iff]
structure Workflow.Alike (w x : Workflow) : Prop where
  header : w.header = x.header
  pipelines : List.Forall₂ Pipeline.Alike w.pipelines x.pipelines

/-! ## The same in canonical order -/

theorem Fields.alike_iff {fs gs : Fields} (h : (Value.object fs).isRegular = true)
    (h' : (Value.object gs).isRegular = true) : fs.Alike gs ↔ fs.inOrder = gs.inOrder := by
  rw [Alike, Value.alike_iff_sortKeys_eq h h', Json.sortKeys_object, Json.sortKeys_object,
    Value.object.injEq]

theorem FieldMapping.alike_iff_canonical_eq {m n : FieldMapping}
    (hm : m.wire.isRegular = true) (hn : n.wire.isRegular = true) :
    m.Alike n ↔ m.canonical = n.canonical := by
  rw [alike_iff, Value.alike_iff_sortKeys_eq (isRegular_default hm) (isRegular_default hn)]
  obtain ⟨_, _, _, _, _, d, _⟩ := m
  obtain ⟨_, _, _, _, _, e, _⟩ := n
  simp only [canonical, mk.injEq]
  grind

theorem Step.alike_iff_canonical_eq {s t : Step} (hs : s.wire.isRegular = true)
    (ht : t.wire.isRegular = true) : s.Alike t ↔ s.canonical = t.canonical := by
  have hinput : Option.Rel Fields.Alike s.inputMapping t.inputMapping ↔
      s.inputMapping.map Fields.inOrder = t.inputMapping.map Fields.inOrder :=
    rel_iff_map_eq fun fs hfs gs hgs =>
      Fields.alike_iff (isRegular_fields hs (.inl hfs)) (isRegular_fields ht (.inl hgs))
  have hmappings : List.Forall₂ FieldMapping.Alike s.fieldMappings t.fieldMappings ↔
      s.fieldMappings.map FieldMapping.canonical = t.fieldMappings.map FieldMapping.canonical :=
    forall₂_iff_map_eq fun m hm n hn =>
      FieldMapping.alike_iff_canonical_eq (isRegular_mapping hs hm) (isRegular_mapping ht hn)
  have hrenames : Option.Rel Keyed.Alike s.renames t.renames ↔
      s.renames.map Keyed.sorted = t.renames.map Keyed.sorted :=
    rel_iff_map_eq fun m hm n hn =>
      (Keyed.sorted_eq_sorted_iff (nodup_renames hs hm) (nodup_renames ht hn)).symm
  have hexpression : Option.Rel Fields.Alike s.branch.expression t.branch.expression ↔
      s.branch.expression.map Fields.inOrder = t.branch.expression.map Fields.inOrder :=
    rel_iff_map_eq fun fs hfs gs hgs =>
      Fields.alike_iff (isRegular_fields hs (.inr hfs)) (isRegular_fields ht (.inr hgs))
  rw [alike_iff, BranchSettings.alike_iff, hinput, hmappings, hrenames, hexpression]
  -- the fields that have no order of names are left, and have to be equal on either side
  obtain ⟨_, _, _, _, _, _, _, _, _, _, _, _, _, _, ⟨_, _, _⟩, _⟩ := s
  obtain ⟨_, _, _, _, _, _, _, _, _, _, _, _, _, _, ⟨_, _, _⟩, _⟩ := t
  simp only [canonical, BranchSettings.canonical, mk.injEq, BranchSettings.mk.injEq]
  grind

theorem Pipeline.alike_iff_canonical_eq {p q : Pipeline} (hp : p.wire.isRegular = true)
    (hq : q.wire.isRegular = true) : p.Alike q ↔ p.canonical = q.canonical := by
  have hmappings : List.Forall₂ FieldMapping.Alike p.delivery.fieldMappings
        q.delivery.fieldMappings ↔
      p.delivery.fieldMappings.map FieldMapping.canonical =
        q.delivery.fieldMappings.map FieldMapping.canonical :=
    forall₂_iff_map_eq fun m hm n hn =>
      FieldMapping.alike_iff_canonical_eq (isRegular_mapping hp hm) (isRegular_mapping hq hn)
  have hsteps : List.Forall₂ Step.Alike p.steps q.steps ↔
      p.steps.map Step.canonical = q.steps.map Step.canonical :=
    forall₂_iff_map_eq fun s hs t ht =>
      Step.alike_iff_canonical_eq (isRegular_step hp hs) (isRegular_step hq ht)
  rw [alike_iff, Delivery.alike_iff, hmappings, hsteps]
  obtain ⟨_, _, _, _, _, _, _, _, _, ⟨_, _, _, _, _, _, _, _, _, _, _, _, _⟩, _⟩ := p
  obtain ⟨_, _, _, _, _, _, _, _, _, ⟨_, _, _, _, _, _, _, _, _, _, _, _, _⟩, _⟩ := q
  simp only [canonical, Delivery.canonical, mk.injEq, Delivery.mk.injEq]
  grind

/-- Workflows are alike if they are the same in canonical order. -/
theorem Workflow.alike_iff_canonical_eq {w x : Workflow} (hw : w.wire.isRegular = true)
    (hx : x.wire.isRegular = true) : w.Alike x ↔ w.canonical = x.canonical := by
  have hpipelines : List.Forall₂ Pipeline.Alike w.pipelines x.pipelines ↔
      w.pipelines.map Pipeline.canonical = x.pipelines.map Pipeline.canonical :=
    forall₂_iff_map_eq fun p hp q hq =>
      Pipeline.alike_iff_canonical_eq (isRegular_pipeline hw hp) (isRegular_pipeline hx hq)
  rw [alike_iff, hpipelines, canonical, canonical, mk.injEq]

/-! ## The document -/

namespace Workflow

/-- Workflows have the same document if they are the same in canonical order. -/
theorem documentText_eq_ok_iff_canonical_eq {w x : Workflow} {s : String}
    (hw : w.wire.isRegular = true) (hx : x.wire.isRegular = true) (hs : w.documentText = .ok s) :
    x.documentText = .ok s ↔ w.canonical = x.canonical := by
  constructor
  · intro h
    have hread := read_documentText hw hs
    rw [read_documentText hx h] at hread
    exact (Except.ok.inj hread).symm
  · intro h
    rwa [← documentText_canonical, ← h, documentText_canonical]

theorem canonical_alike {w : Workflow} (hw : w.wire.isRegular = true) : w.canonical.Alike w :=
  (alike_iff_canonical_eq (w.isRegular_canonical.trans hw) hw).mpr w.canonical_canonical

/-- The document of a workflow is faithful and canonical. A valid workflow that has one is loaded from
it as itself but for the order of names, and another workflow has the same document exactly if it is
alike. It has one if its values are not nested too deep, no integer in it is too long and nothing in it
is sealed; otherwise, if nothing is sealed, it is a value that is at fault. All that is loaded from a text
is valid, can be told from others, and has a document unless its values are nested too deep. -/
theorem documentText_faithful {w : Workflow} (regular : w.wire.isRegular = true)
    (valid : w.issues = .ok []) :
    (∀ s, w.documentText = .ok s →
      (∃ loaded, load (.text s) = .ok loaded ∧ loaded.Alike w ∧ loaded.documentText = .ok s) ∧
        ∀ x : Workflow, x.wire.isRegular = true → (x.documentText = .ok s ↔ w.Alike x)) ∧
    ((∃ s, w.documentText = .ok s) ↔ w.IsWritable) ∧
    (∀ f, w.documentText = .error f → (∀ v ∈ w.freeValues, v.holdsSealed = false) →
      f = .badValue) ∧
    ∀ (text : String) (loaded : Workflow), load (.text text) = .ok loaded →
      loaded.issues = .ok [] ∧ loaded.wire.isRegular = true ∧
        ((∃ s, loaded.documentText = .ok s) ↔
          ∀ v ∈ loaded.freeValues, v.depth ≤ Value.maxDepth) := by
  refine ⟨fun s hs => ⟨?_, fun x hx => ?_⟩, exists_documentText,
    fun f h hopen => eq_badValue_of_documentText h hopen, fun text loaded hload => ?_⟩
  · exact ⟨w.canonical, load_documentText regular valid hs, canonical_alike regular,
      documentText_canonical.mpr hs⟩
  · rw [documentText_eq_ok_iff_canonical_eq regular hx hs, alike_iff_canonical_eq regular hx]
  · have hlegible := isLegible_of_load hload
    rw [Value.isLegible_eq, Bool.and_eq_true] at hlegible
    exact ⟨issues_eq_nil_iff_isValid.mpr (load_eq_ok_iff.mp hload).2, hlegible.1,
      exists_documentText_of_load hload⟩

/-- A mapping with a default value, on its way to a REST destination. -/
def defaulted (value : Value) : Workflow :=
  ⟨{ id := "sole", name := "sole" },
    [{ id := "defaulted"
       sourceKind := .senderApp
       applicationId := some 1
       destinationKind := some .rest
       restId := some 7
       delivery :=
         { fieldMappings :=
             [{ sourceField := "level"
                destinationColumn := "height"
                defaultValue := value }] } }]⟩

theorem defaulted_alike_iff {v v' : Value} : (defaulted v).Alike (defaulted v') ↔ v.Alike v' := by
  constructor
  · rintro ⟨-, hpipelines⟩
    obtain ⟨hpipeline, -⟩ := List.forall₂_cons.mp hpipelines
    exact (List.forall₂_cons.mp hpipeline.delivery.fieldMappings).1.default
  · intro h
    exact ⟨rfl, .cons ⟨⟨.cons ⟨h, rfl⟩ .nil, rfl⟩, .nil, rfl⟩ .nil⟩

/-- Another order of names gives the same document; another kind of number gives another, and so
does a null left out. -/
theorem defaulted_faithful :
    let w := defaulted (.object [("low", .null), ("high", .int 0)])
    w.wire.isRegular = true ∧ w.issues = .ok [] ∧
      ∃ s, w.documentText = .ok s ∧
        (∃ loaded, load (.text s) = .ok loaded ∧ loaded.Alike w ∧ loaded.documentText = .ok s) ∧
        (defaulted (.object [("high", .int 0), ("low", .null)])).documentText = .ok s ∧
        (defaulted (.object [("low", .null), ("high", .float .zero)])).documentText ≠ .ok s ∧
        (defaulted (.object [("high", .int 0)])).documentText ≠ .ok s := by
  intro w
  have regular : w.wire.isRegular = true := by decide +kernel
  have valid : w.issues = .ok [] := issues_singleton (by decide +kernel) (by decide +kernel)
  obtain ⟨faithful, written, -⟩ := documentText_faithful regular valid
  obtain ⟨s, hs⟩ := written.mpr ⟨by decide +kernel, by decide +kernel⟩
  obtain ⟨loaded, same⟩ := faithful s hs
  refine ⟨regular, valid, s, hs, loaded, (same _ (by decide +kernel)).mpr ?_, ?_, ?_⟩
  · exact defaulted_alike_iff.mpr (Value.alike_of_perm (.swap ..) (by decide))
  · intro h
    have halike := defaulted_alike_iff.mp ((same _ (by decide +kernel)).mp h)
    cases Value.alike_object_iff.mp halike "high" with
    | some hvalue => cases hvalue
  · intro h
    have halike := defaulted_alike_iff.mp ((same _ (by decide +kernel)).mp h)
    cases Value.alike_object_iff.mp halike "low"

/-- Lists that stand inside each other. -/
def nestedLists : Nat → Value
  | 0 => .null
  | n + 1 => .list [nestedLists n]

/-- A valid workflow of finite numbers that has no document: the innermost value stands inside as many
others as there is room for. -/
theorem nested_unwritten :
    let w := defaulted (nestedLists Value.maxDepth)
    w.wire.isLegible true = true ∧ w.issues = .ok [] ∧ w.documentText = .error .badValue := by
  intro w
  exact ⟨by decide +kernel, issues_singleton (by decide +kernel) (by decide +kernel),
    by decide +kernel⟩

end Workflow
end Conveyor
