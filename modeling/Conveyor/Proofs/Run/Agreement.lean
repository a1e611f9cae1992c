import Conveyor.Proofs.Json.Canonical
import Conveyor.Proofs.Outcome
import Conveyor.Run.Execution

/-!
# Scopes that agree

A step sees of a scope the latest output, and what the names stand for that its settings mention: in
the references of its input mapping and in the placeholders of its body template. Two scopes that
agree on those names are the same to it (`Scope.AgreeOn.renderInput`, `Scope.AgreeOn.restBody`).
-/

namespace Conveyor

/-! ## The names that settings mention -/

namespace Scope

/-- The name that a reference starts with. -/
def nameOf (reference : String) : String := (Text.cut '.' (bare reference)).1

/-- The name that a setting refers to. -/
def nameIn? : Value → Option String
  | .text t => if isReference t then some (nameOf t) else none
  | _ => none

/-- The names that an input mapping refers to. -/
def namesIn (settings : Fields) : List String := settings.filterMap fun f => nameIn? f.2

end Scope

namespace Template

/-- The name that the expression of a placeholder starts with. -/
def nameOf (expression : String) : String := (Text.cut '.' expression).1

def Piece.name? : Piece → Option String
  | .literal _ => none
  | .placeholder e => some (nameOf e)

def namesInText (s : String) : List String :=
  match whole? s with
  | some e => [nameOf e]
  | none => (pieces s.toList).filterMap Piece.name?

mutual

/-- The names in the placeholders of a template. -/
def namesIn : Value → List String
  | .text s => namesInText s
  | .list items => namesInItems items
  | .object fs => namesInFields fs
  | _ => []

def namesInItems : List Value → List String
  | [] => []
  | v :: rest => namesIn v ++ namesInItems rest

def namesInFields : List (String × Value) → List String
  | [] => []
  | (_, v) :: rest => namesIn v ++ namesInFields rest

end

/-! ## Templates -/

/-- The two contexts have the same under each of the names. -/
def AgreeOn (names : List String) (context context' : Fields) : Prop :=
  ∀ name ∈ names, context'.get? name = context.get? name

variable {context context' : Fields}

theorem AgreeOn.mono {names names' : List String} (h : AgreeOn names context context')
    (sub : names' ⊆ names) : AgreeOn names' context context' :=
  fun name hname => h name (sub hname)

theorem AgreeOn.resolve {expression : String} (h : AgreeOn [nameOf expression] context context') :
    resolve context' expression = resolve context expression := by
  have hroot := h _ (List.mem_singleton_self _)
  unfold nameOf at hroot
  unfold Template.resolve
  generalize Text.cut '.' expression = parts at hroot ⊢
  obtain ⟨name, path⟩ := parts
  dsimp only at hroot ⊢
  rw [hroot]

theorem AgreeOn.renderText {s : String} (h : AgreeOn (namesInText s) context context') :
    renderText context' s = renderText context s := by
  unfold namesInText at h
  unfold Template.renderText
  cases hwhole : whole? s with
  | some e =>
    rw [hwhole] at h
    exact h.resolve
  | none =>
    rw [hwhole] at h
    have hpieces : ∀ piece ∈ pieces s.toList,
        fillPiece context' piece = fillPiece context piece := by
      intro piece hpiece
      cases piece with
      | literal c => rfl
      | placeholder e =>
        refine congrArg (· >>= embedded) (AgreeOn.resolve fun name hname => h name ?_)
        exact List.mem_filterMap.mpr ⟨_, hpiece, by rw [List.mem_singleton.mp hname]; rfl⟩
    simp only [Outcome.mapM_congr hpieces]

theorem AgreeOn.renderItems {items : List Value}
    (h : ∀ v ∈ items, render context' v = render context v) :
    renderItems context' items = renderItems context items := by
  induction items with
  | nil => rfl
  | cons v rest ih =>
    obtain ⟨hv, hrest⟩ := List.forall_mem_cons.mp h
    rw [Template.renderItems, Template.renderItems, hv, ih hrest]

theorem AgreeOn.renderFields {fs : List (String × Value)}
    (h : ∀ f ∈ fs, render context' f.2 = render context f.2) :
    renderFields context' fs = renderFields context fs := by
  induction fs with
  | nil => rfl
  | cons f rest ih =>
    obtain ⟨hf, hrest⟩ := List.forall_mem_cons.mp h
    rw [Template.renderFields, Template.renderFields, hf, ih hrest]

theorem mem_namesInItems {items : List Value} {v : Value} (hv : v ∈ items) :
    namesIn v ⊆ namesInItems items := by
  induction items with
  | nil => cases hv
  | cons w rest ih =>
    rw [namesInItems]
    rcases List.mem_cons.mp hv with rfl | hrest
    · exact List.subset_append_left _ _
    · exact List.Subset.trans (ih hrest) (List.subset_append_right _ _)

theorem mem_namesInFields {fs : List (String × Value)} {f : String × Value} (hf : f ∈ fs) :
    namesIn f.2 ⊆ namesInFields fs := by
  induction fs with
  | nil => cases hf
  | cons g rest ih =>
    rw [namesInFields]
    rcases List.mem_cons.mp hf with rfl | hrest
    · exact List.subset_append_left _ _
    · exact List.Subset.trans (ih hrest) (List.subset_append_right _ _)

/-- A template is filled alike from contexts that agree on the names in it. -/
theorem AgreeOn.render {template : Value} (h : AgreeOn (namesIn template) context context') :
    render context' template = render context template := by
  induction template using Value.induction with
  | list items ih =>
    rw [namesIn] at h
    refine congrArg (Value.list <$> ·) (AgreeOn.renderItems fun v hv => ?_)
    exact ih v hv (h.mono (mem_namesInItems hv))
  | object fs ih =>
    rw [namesIn] at h
    refine congrArg (Value.object <$> ·) (AgreeOn.renderFields fun f hf => ?_)
    exact ih f hf (h.mono (mem_namesInFields hf))
  | other v hlist hobject =>
    unfold Template.render
    split
    · exact AgreeOn.renderText h
    · exact absurd rfl (hlist _)
    · exact absurd rfl (hobject _)
    · rfl

end Template

/-! ## Scopes -/

namespace Scope

/-- The two scopes have the same trigger and the same latest output, and the same under each name of
a set. -/
structure AgreeOn (names : String → Prop) (scope scope' : Scope) : Prop where
  trigger : scope'.trigger = scope.trigger
  last : scope'.last = scope.last
  bindings : ∀ name, names name → scope'.bindings.get? name = scope.bindings.get? name

variable {names : String → Prop} {scope scope' : Scope}

theorem agreeOn_refl (names : String → Prop) (scope : Scope) : scope.AgreeOn names scope :=
  ⟨rfl, rfl, fun _ _ => rfl⟩

theorem AgreeOn.root? (h : scope.AgreeOn names scope') {name : String} (hname : names name) :
    scope'.root? name = scope.root? name := by
  unfold Scope.root?
  rw [h.trigger, h.bindings name hname]

theorem AgreeOn.resolve (h : scope.AgreeOn names scope') {reference : String}
    (hname : names (nameOf reference)) : scope'.resolve reference = scope.resolve reference := by
  have hroot := h.root? hname
  unfold nameOf at hroot
  unfold Scope.resolve
  generalize Text.cut '.' (bare reference) = parts at hroot ⊢
  obtain ⟨name, path⟩ := parts
  dsimp only at hroot ⊢
  rw [hroot]

theorem AgreeOn.resolveValue (h : scope.AgreeOn names scope') {v : Value}
    (hname : ∀ name, nameIn? v = some name → names name) :
    scope'.resolveValue v = scope.resolveValue v := by
  cases v with
  | text t =>
    unfold Scope.resolveValue
    by_cases href : isReference t = true
    · have hname' : names (nameOf t) := hname _ (by rw [nameIn?, if_pos href])
      simp only [if_pos href, h.resolve hname']
    · simp only [if_neg href]
  | _ => rfl

/-- Scopes that agree on the names that an input mapping refers to give the same input. -/
theorem AgreeOn.renderInput (h : scope.AgreeOn names scope') {inputMapping : Option Fields}
    (hnames : ∀ settings, inputMapping = some settings → ∀ name ∈ namesIn settings, names name) :
    scope'.renderInput inputMapping = scope.renderInput inputMapping := by
  unfold Scope.renderInput
  split
  · rw [h.last]
  · rw [h.last]
  · rename_i settings _
    refine congrArg (Value.object <$> ·) (Outcome.mapM_congr fun f hf => ?_)
    have hvalue : scope'.resolveValue f.2 = scope.resolveValue f.2 :=
      h.resolveValue fun name hname =>
        hnames settings rfl name (List.mem_filterMap.mpr ⟨f, hf, hname⟩)
    exact congrArg (· >>= fun v => pure (f.1, v)) hvalue

/-- In a body template, the name of the input stands for the input of the step, and every other name for what
it stands for in the scope. -/
theorem get?_templateContext (scope : Scope) (input : Value) (name : String) :
    (scope.templateContext input).get? name =
      if name = "input" then some input else scope.root? name := by
  unfold Scope.templateContext Scope.root?
  by_cases hinput : name = "input"
  · rw [hinput, Keyed.get?_put_same, if_pos rfl]
  · rw [Keyed.get?_put_other _ _ hinput, if_neg hinput]
    by_cases htrigger : name = triggerName
    · rw [htrigger, Keyed.get?_put_same, if_pos rfl]
    · rw [Keyed.get?_put_other _ _ htrigger, if_neg htrigger]

/-- A body template is filled alike from scopes that agree on the names in it. -/
theorem AgreeOn.templateContext (h : scope.AgreeOn names scope') (input : Value)
    {mentioned : List String} (hnames : ∀ name ∈ mentioned, names name) :
    Template.AgreeOn mentioned (scope.templateContext input) (scope'.templateContext input) := by
  intro name hname
  rw [get?_templateContext, get?_templateContext, h.root? (hnames name hname)]

theorem get?_foldl_put (output : Value) (bound : List String) (m : Keyed Value) (name : String) :
    (bound.foldl (fun m n => m.put n output) m).get? name =
      if name ∈ bound then some output else m.get? name := by
  induction bound generalizing m with
  | nil => rfl
  | cons n rest ih =>
    rw [List.foldl_cons, ih]
    by_cases hrest : name ∈ rest
    · rw [if_pos hrest, if_pos (List.mem_cons_of_mem n hrest)]
    · rw [if_neg hrest]
      by_cases hn : name = n
      · rw [hn, Keyed.get?_put_same, if_pos List.mem_cons_self]
      · rw [Keyed.get?_put_other _ _ hn, if_neg (by simp [hn, hrest])]

/-- The scopes still agree when the same output has been bound in both, to the same names as far as
they matter. -/
theorem AgreeOn.bind (h : scope.AgreeOn names scope') (output : Value) {bound bound' : List String}
    (same : ∀ name, names name → (name ∈ bound' ↔ name ∈ bound)) :
    (scope.bind output bound).AgreeOn names (scope'.bind output bound') := by
  refine ⟨h.trigger, rfl, fun name hname => ?_⟩
  unfold Scope.bind
  dsimp only
  rw [get?_foldl_put, get?_foldl_put, h.bindings name hname]
  simp only [List.mem_filter, same name hname]

end Scope
end Conveyor
