import Conveyor.Proofs.Mapping.Path
import Conveyor.Proofs.Run.Agreement
import Conveyor.Proofs.Text

/-!
# What names stand for

A setting refers to what a scope holds with a dollar sign, a body template with braces. Both ways find the same
under every name but that of the step's input, which only a template has (`resolve_alike`). What is found
below a value has every property that passes on from a value to what it is made of (`Value.Inherited`).
-/

namespace Conveyor

open Outcome

/-! ## What is found below a value -/

/-- Every item and every field of a value that has the property has it, too. -/
structure Value.Inherited (P : Value → Prop) : Prop where
  item : ∀ {items : List Value}, P (.list items) → ∀ v ∈ items, P v
  field : ∀ {v : Value} {fs : Fields}, v.fields? = some fs → P v → ∀ f ∈ fs, P f.2

namespace Template

variable {context : Fields} {e : String} {v : Value}

/-- A placeholder has a value if its name has one and its path leads to something below. -/
theorem resolve_eq_ok_iff : resolve context e = .ok v ↔
    ∃ root, context.get? (Text.cut '.' e).1 = some root ∧
      Scope.below root (Text.cut '.' e).2 = .ok (some v) := by
  unfold resolve
  dsimp only
  cases context.get? (Text.cut '.' e).1 with
  | none => simp
  | some root =>
    dsimp only
    rw [bind_eq_ok_iff]
    constructor
    · rintro ⟨found, hfound, h⟩
      cases found with
      | none => cases h
      | some w =>
        cases h
        exact ⟨root, rfl, mapError_eq_ok_iff.mp hfound⟩
    · rintro ⟨_, ⟨⟩, h⟩
      exact ⟨some v, mapError_eq_ok_iff.mpr h, rfl⟩

end Template

namespace Value.Inherited

variable {P : Value → Prop} {v w root : Value} {part path e : String} {parts : List String}
  {record context : Fields}

theorem descend (hP : Inherited P) (hv : P v) (h : Mapping.descend v part = .ok (some w)) : P w := by
  unfold Mapping.descend at h
  split at h
  · exact hP.field rfl hv _ (Keyed.mem_of_get? (Except.ok.inj h))
  · exact hP.field rfl hv _ (Keyed.mem_of_get? (Except.ok.inj h))
  · obtain ⟨i?, -, hi⟩ := bind_eq_ok_iff.mp h
    cases i? with
    | none => cases hi
    | some i => exact hP.item hv w (List.mem_of_getElem? (Except.ok.inj hi))
  · cases h

theorem follow (hP : Inherited P) (hv : P v) (h : Mapping.follow v parts = .ok (some w)) : P w := by
  induction parts generalizing v with
  | nil =>
    cases h
    exact hv
  | cons part rest ih =>
    obtain ⟨u, hu, hw⟩ := Mapping.follow_cons_eq_ok_iff.mp h
    exact ih (hP.descend hv hu) hw

/-- What a path finds in a record is one of its fields or lies in one. -/
theorem lookup (hP : Inherited P) (hrecord : ∀ f ∈ record, P f.2)
    (h : Mapping.lookup record path = .ok (some v)) : P v := by
  unfold Mapping.lookup at h
  split at h
  · rename_i u hu
    cases h
    exact hrecord _ (Keyed.mem_of_get? hu)
  · split at h
    · cases hparts : Text.split '.' path with
      | nil => exact absurd (List.map_eq_nil_iff.mp hparts) (Text.splitChars_ne_nil _ _)
      | cons part rest =>
        rw [hparts] at h
        obtain ⟨u, hu, hv⟩ := Mapping.follow_cons_eq_ok_iff.mp h
        exact hP.follow (hrecord _ (Keyed.mem_of_get? (Except.ok.inj hu))) hv
    · cases h

theorem below (hP : Inherited P) (hroot : P root) (h : Scope.below root path = .ok (some v)) : P v := by
  unfold Scope.below at h
  split at h
  · cases h
    exact hroot
  · split at h
    · rename_i record hfields
      exact hP.lookup (hP.field hfields hroot) h
    · cases h

/-- What a placeholder stands for is in the context. -/
theorem resolve (hP : Inherited P) (hcontext : ∀ f ∈ context, P f.2)
    (h : Template.resolve context e = .ok v) : P v := by
  obtain ⟨root, hroot, hv⟩ := Template.resolve_eq_ok_iff.mp h
  exact hP.below (hcontext _ (Keyed.mem_of_get? hroot)) hv

end Value.Inherited

/-! ## References and placeholders -/

namespace Scope

theorem bare_dollar {r : String} (h : r.toList.head? ≠ some '$') : bare ("$" ++ r) = r := by
  have hdrop : r.toList.dropWhile (· = '$') = r.toList := by
    cases hr : r.toList with
    | nil => rfl
    | cons c rest =>
      rw [hr] at h
      rw [List.dropWhile_cons, if_neg (by simpa using h)]
  rw [bare, String.toList_append, show "$".toList = ['$'] from rfl, List.singleton_append,
    List.dropWhile_cons, if_pos (by decide), hdrop, String.ofList_toList]

end Scope

/-- Two failures of one kind: mapping errors that are reported under the same kind, or the same fault. -/
def Failure.SameKind : Failure → Failure → Prop
  | .mapping e, .mapping e' => e.kind = e'.kind
  | .fault f, .fault f' => f = f'
  | _, _ => False

/-- A reference with a dollar sign and a placeholder with the same text, the input apart, have the same value or
fail in the same way. -/
theorem resolve_alike (s : Scope) (input : Value) {r : String} (plain : r.toList.head? ≠ some '$')
    (other : Template.nameOf r ≠ "input") :
    (∃ v, s.resolve ("$" ++ r) = .ok v ∧ Template.resolve (s.templateContext input) r = .ok v) ∨
      ∃ f f', s.resolve ("$" ++ r) = .error f ∧
        Template.resolve (s.templateContext input) r = .error f' ∧ f.SameKind f' := by
  unfold Template.nameOf at other
  unfold Scope.resolve Template.resolve
  dsimp only
  rw [Scope.bare_dollar plain, Scope.get?_templateContext, if_neg other]
  cases s.root? (Text.cut '.' r).1 with
  | none => exact .inr ⟨_, _, rfl, rfl, rfl⟩
  | some root =>
    dsimp only
    cases Scope.below root (Text.cut '.' r).2 with
    | error f => exact .inr ⟨.fault f, .fault f, rfl, rfl, rfl⟩
    | ok found =>
      cases found with
      | none => exact .inr ⟨_, _, rfl, rfl, rfl⟩
      | some v => exact .inl ⟨v, rfl, rfl⟩

/-- A scope in which an output has the name of the trigger, and one that is much like it. -/
def shadowing : Scope :=
  (Scope.start [("a", .list [.null])]).bind (.list [.int 1]) ["trigger", "triggers"]

theorem shadowing_alike : "trigger.a.0".toList.head? ≠ some '$' ∧
    Template.nameOf "trigger.a.0" ≠ "input" ∧
    ((∃ v, shadowing.resolve "$trigger.a.0" = .ok v ∧
        Template.resolve (shadowing.templateContext .null) "trigger.a.0" = .ok v) ∨
      ∃ f f', shadowing.resolve "$trigger.a.0" = .error f ∧
        Template.resolve (shadowing.templateContext .null) "trigger.a.0" = .error f' ∧
          f.SameKind f') := by
  have plain : "trigger.a.0".toList.head? ≠ some '$' := by decide
  have other : Template.nameOf "trigger.a.0" ≠ "input" := by decide
  have alike := resolve_alike shadowing .null plain other
  rw [show "$" ++ "trigger.a.0" = "$trigger.a.0" by decide] at alike
  exact ⟨plain, other, alike⟩

end Conveyor
