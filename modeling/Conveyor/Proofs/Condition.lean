import Conveyor.Condition
import Conveyor.Proofs.Json.Canonical
import Conveyor.Proofs.Outcome

/-!
# Conditions and the order of names

A condition is judged by what its names stand for and not by their order. Only the value that a
comparison compares with can tell the order of its own names.
-/

namespace Conveyor

namespace Condition

/-! ## Forms -/

/-- What the fields of a condition make it. -/
inductive Form where
  | all (parts : Value)
  | any (parts : Value)
  | negation (part : Value)
  | comparison

/-- A combinator if one of its names is there, the first of them in this order; else a
comparison. -/
def formOf (fs : Fields) : Form :=
  match Keyed.get? "all" fs, Keyed.get? "any" fs, Keyed.get? "not" fs with
  | some v, _, _ => .all v
  | none, some v, _ => .any v
  | none, none, some v => .negation v
  | none, none, none => .comparison

/-- The fields that are left to be searched decide the form. -/
structure Decides (fs : Fields) (rest : List (String × Value)) : Prop where
  all : Keyed.get? "all" rest = Keyed.get? "all" fs
  any : Keyed.get? "all" fs = none → Keyed.get? "any" rest = Keyed.get? "any" fs
  negation : Keyed.get? "all" fs = none → Keyed.get? "any" fs = none →
    Keyed.get? "not" rest = Keyed.get? "not" fs

theorem decides_self (fs : Fields) : Decides fs fs := ⟨rfl, fun _ => rfl, fun _ _ => rfl⟩

theorem has_eq_false_iff {fs : Fields} {key : String} :
    Keyed.has fs key = false ↔ Keyed.get? key fs = none := by
  rw [Keyed.has, Option.isSome_eq_false_iff, Option.isNone_iff_eq_none]

/-- The first field that is left to be searched gives the form, or is passed over. -/
theorem Decides.cases {fs : Fields} {k : String} {v : Value} {rest : List (String × Value)}
    (h : Decides fs ((k, v) :: rest)) :
    (k = "all" ∧ formOf fs = .all v) ∨
      (k = "any" ∧ Keyed.has fs "all" = false ∧ formOf fs = .any v) ∨
      (k = "not" ∧ Keyed.has fs "all" = false ∧ Keyed.has fs "any" = false ∧
        formOf fs = .negation v) ∨
      (k ≠ "all" ∧ (k = "any" → Keyed.has fs "all" = true) ∧
        (k = "not" → Keyed.has fs "all" = false → Keyed.has fs "any" = true) ∧
        Decides fs rest) := by
  obtain ⟨hall, hany, hnot⟩ := h
  rw [Keyed.get?] at hall hany hnot
  by_cases hk : k = "all"
  · rw [if_pos hk] at hall
    exact .inl ⟨hk, by rw [formOf, ← hall]⟩
  rw [if_neg hk] at hall
  by_cases hk' : k = "any"
  · cases hvalue : Keyed.get? "all" fs with
    | none =>
      have hany := hany hvalue
      rw [if_pos hk'] at hany
      exact .inr (.inl ⟨hk', has_eq_false_iff.mpr hvalue, by rw [formOf, hvalue, ← hany]⟩)
    | some w =>
      -- `all` is among the fields further on and goes before this one
      refine .inr (.inr (.inr ⟨hk, fun _ => ?_, fun hnot' => ?_, hall, ?_, ?_⟩))
      · rw [Keyed.has, hvalue]
        rfl
      · exact absurd (hk'.symm.trans hnot') (by decide)
      · rintro hnone
        exact absurd (hvalue.symm.trans hnone) (Option.some_ne_none w)
      · rintro hnone
        exact absurd (hvalue.symm.trans hnone) (Option.some_ne_none w)
  rw [if_neg hk'] at hany
  by_cases hk'' : k = "not"
  · by_cases hnone : Keyed.get? "all" fs = none ∧ Keyed.get? "any" fs = none
    · obtain ⟨hvalue, hvalue'⟩ := hnone
      have hnot := hnot hvalue hvalue'
      rw [if_pos hk''] at hnot
      exact .inr (.inr (.inl ⟨hk'', has_eq_false_iff.mpr hvalue, has_eq_false_iff.mpr hvalue',
        by rw [formOf, hvalue, hvalue', ← hnot]⟩))
    · refine .inr (.inr (.inr ⟨hk, fun h => absurd h hk', fun _ hfalse => ?_, hall, hany, ?_⟩))
      · rw [has_eq_false_iff] at hfalse
        by_contra hother
        rw [Bool.not_eq_true, has_eq_false_iff] at hother
        exact hnone ⟨hfalse, hother⟩
      · intro hvalue hvalue'
        exact absurd ⟨hvalue, hvalue'⟩ hnone
  · rw [if_neg hk''] at hnot
    exact .inr (.inr (.inr ⟨hk, fun h => absurd h hk', fun h => absurd h hk'', hall, hany, hnot⟩))

/-- Without fields that are left the condition is a comparison. -/
theorem Decides.comparison {fs : Fields} (h : Decides fs []) : formOf fs = .comparison := by
  have hall := h.all.symm
  have hany := (h.any hall).symm
  have hnot := (h.negation hall hany).symm
  rw [formOf, hall, hany, hnot]
  rfl

/-! ## Problems -/

/-- What is wrong with the parts of a combinator. -/
def partsProblems (key : String) : Value → Except Fault (List Problem)
  | .list [] => .ok [notAList key]
  | .list items => problemsOfItems key 0 items
  | _ => .ok [notAList key]

/-- What is wrong with a condition of a form. -/
def formProblems (fs : Fields) : Form → Except Fault (List Problem)
  | .all v => partsProblems "all" v
  | .any v => partsProblems "any" v
  | .negation v => do
    let ps ← problems v
    pure (ps.map (·.within [.field "not"]))
  | .comparison => comparisonProblems fs

theorem problemsOfFields_eq {fs : Fields} {rest : List (String × Value)} (h : Decides fs rest) :
    problemsOfFields fs rest = formProblems fs (formOf fs) := by
  induction rest with
  | nil =>
    rw [problemsOfFields, h.comparison]
    rfl
  | cons f rest ih =>
    obtain ⟨k, v⟩ := f
    rw [problemsOfFields.eq_def]
    dsimp only
    rcases h.cases with ⟨rfl, hform⟩ | ⟨rfl, hall, hform⟩ | ⟨rfl, hall, hany, hform⟩ |
      ⟨hk, hany, hnot, hrest⟩
    · rw [if_pos (.inl rfl), hform]
      rfl
    · rw [if_pos (.inr ⟨rfl, by rw [hall]; rfl⟩), hform]
      rfl
    · rw [if_neg (by simp), if_pos ⟨rfl, by rw [hall]; rfl, by rw [hany]; rfl⟩, hform]
      rfl
    · rw [if_neg, if_neg, ih hrest]
      · rintro ⟨hk', hall, hother⟩
        rw [Bool.not_eq_true'] at hall hother
        rw [hnot hk' hall] at hother
        cases hother
      · rintro (hk' | ⟨hk', hall⟩)
        · exact hk hk'
        · rw [Bool.not_eq_true', hany hk'] at hall
          cases hall

theorem problems_object (fs : Fields) : problems (.object fs) = formProblems fs (formOf fs) := by
  rw [problems, problemsOfFields_eq (decides_self fs)]

open Outcome

/-- A comparison without problems names a field and an operator that is known. -/
theorem comparisonProblems_eq_nil_iff {fs : Fields} :
    comparisonProblems fs = .ok [] ↔
      (∃ s, Keyed.get? "field" fs = some (.text s) ∧ s.isEmpty = false) ∧
        ∃ c, Comparison.ofValue? ((Keyed.get? "operator" fs).getD (.text "eq")) = .ok (some c) := by
  unfold comparisonProblems
  rw [bind_eq_ok_iff]
  constructor
  · rintro ⟨known, hknown, h⟩
    have hnil := Except.ok.inj h
    rw [List.append_eq_nil_iff] at hnil
    obtain ⟨hfield, hoperator⟩ := hnil
    constructor
    · cases hget : Keyed.get? "field" fs with
      | none => simp [hget] at hfield
      | some v =>
        cases v with
        | text s =>
          refine ⟨s, rfl, ?_⟩
          simpa [hget] using hfield
        | _ => simp [hget] at hfield
    · cases known with
      | none => simp at hoperator
      | some c => exact ⟨c, hknown⟩
  · rintro ⟨⟨s, hfield, hs⟩, c, hc⟩
    refine ⟨some c, hc, ?_⟩
    simp only [hfield, hs]
    rfl

theorem problemsOfItems_eq_nil_iff {key : String} {i : Nat} {items : List Value} :
    problemsOfItems key i items = .ok [] ↔ ∀ v ∈ items, problems v = .ok [] := by
  induction items generalizing i with
  | nil => simp [problemsOfItems]
  | cons v rest ih =>
    rw [problemsOfItems, bind_eq_ok_iff, List.forall_mem_cons]
    constructor
    · rintro ⟨ps, hps, h⟩
      obtain ⟨more, hmore, h⟩ := bind_eq_ok_iff.mp h
      have hnil := Except.ok.inj h
      rw [List.append_eq_nil_iff, List.map_eq_nil_iff] at hnil
      obtain ⟨rfl, rfl⟩ := hnil
      exact ⟨hps, ih.mp hmore⟩
    · rintro ⟨hps, hrest⟩
      exact ⟨[], hps, bind_eq_ok_iff.mpr ⟨[], ih.mpr hrest, rfl⟩⟩

/-- A combinator without problems has a list of conditions, one at least. -/
theorem partsProblems_eq_nil_iff {key : String} {v : Value} :
    partsProblems key v = .ok [] ↔
      ∃ items, v = .list items ∧ items ≠ [] ∧ ∀ w ∈ items, problems w = .ok [] := by
  constructor
  · intro h
    unfold partsProblems at h
    split at h
    · cases h
    · rename_i items hne
      exact ⟨items, rfl, fun hnil => hne (by rw [hnil]), problemsOfItems_eq_nil_iff.mp h⟩
    · cases h
  · rintro ⟨items, rfl, hne, hitems⟩
    obtain ⟨w, rest, rfl⟩ := List.exists_cons_of_ne_nil hne
    exact problemsOfItems_eq_nil_iff.mpr hitems

/-! ## The order of names -/

def Form.map (f : Value → Value) : Form → Form
  | .all v => .all (f v)
  | .any v => .any (f v)
  | .negation v => .negation (f v)
  | .comparison => .comparison

/-- The form is the same whatever the order of names. -/
theorem formOf_inOrder {fs : Fields} (hkeys : (Keyed.keys fs).Nodup) :
    formOf fs.inOrder = (formOf fs).map Json.sortKeys := by
  unfold formOf
  rw [Fields.get?_inOrder hkeys, Fields.get?_inOrder hkeys, Fields.get?_inOrder hkeys]
  cases Keyed.get? "all" fs with
  | some v => rfl
  | none =>
    cases Keyed.get? "any" fs with
    | some v => rfl
    | none =>
      cases Keyed.get? "not" fs with
      | some v => rfl
      | none => rfl

theorem ofValue?_sortKeys {v : Value} {c : Comparison}
    (h : Comparison.ofValue? v = .ok (some c)) : Json.sortKeys v = v := by
  cases v with
  | text s => rfl
  | list items => cases h
  | object fs => cases h
  | _ => rfl

theorem operator_inOrder {fs : Fields} (hkeys : (Keyed.keys fs).Nodup) {c : Comparison}
    (h : Comparison.ofValue? ((Keyed.get? "operator" fs).getD (.text "eq")) = .ok (some c)) :
    (Keyed.get? "operator" fs.inOrder).getD (.text "eq") =
      (Keyed.get? "operator" fs).getD (.text "eq") := by
  rw [Fields.get?_inOrder hkeys]
  cases hget : Keyed.get? "operator" fs with
  | none => rfl
  | some v =>
    rw [hget] at h
    exact ofValue?_sortKeys h

theorem comparisonProblems_inOrder {fs : Fields} (hkeys : (Keyed.keys fs).Nodup)
    (h : comparisonProblems fs = .ok []) : comparisonProblems fs.inOrder = .ok [] := by
  obtain ⟨⟨s, hfield, hs⟩, c, hc⟩ := comparisonProblems_eq_nil_iff.mp h
  refine comparisonProblems_eq_nil_iff.mpr ⟨⟨s, ?_, hs⟩, c, ?_⟩
  · rw [Fields.get?_inOrder hkeys, hfield]
    rfl
  · rw [operator_inOrder hkeys hc]
    exact hc

/-- The part of a combinator is one of the fields. -/
theorem mem_of_formOf {fs : Fields} {v : Value}
    (h : formOf fs = .all v ∨ formOf fs = .any v ∨ formOf fs = .negation v) :
    ∃ k, (k, v) ∈ fs := by
  unfold formOf at h
  cases hall : Keyed.get? "all" fs with
  | some w =>
    rw [hall] at h
    obtain rfl : w = v := by simpa using h
    exact ⟨_, Keyed.mem_of_get? hall⟩
  | none =>
    cases hany : Keyed.get? "any" fs with
    | some w =>
      rw [hall, hany] at h
      obtain rfl : w = v := by simpa using h
      exact ⟨_, Keyed.mem_of_get? hany⟩
    | none =>
      cases hnot : Keyed.get? "not" fs with
      | some w =>
        rw [hall, hany, hnot] at h
        obtain rfl : w = v := by simpa using h
        exact ⟨_, Keyed.mem_of_get? hnot⟩
      | none =>
        rw [hall, hany, hnot] at h
        simp at h

/-! ## Conditions without problems -/

/-- A condition in which every part is what its place asks for. -/
inductive IsSound : Value → Prop where
  | comparison {fs : Fields} (form : formOf fs = .comparison)
      (parts : comparisonProblems fs = .ok []) : IsSound (.object fs)
  | combinator {fs : Fields} {items : List Value}
      (form : formOf fs = .all (.list items) ∨ formOf fs = .any (.list items))
      (nonempty : items ≠ []) (parts : ∀ v ∈ items, IsSound v) : IsSound (.object fs)
  | negation {fs : Fields} {v : Value} (form : formOf fs = .negation v) (part : IsSound v) :
      IsSound (.object fs)

/-- A negation has the problems of the condition it negates. -/
theorem negationProblems_eq_nil_iff {fs : Fields} {v : Value} :
    formProblems fs (.negation v) = .ok [] ↔ problems v = .ok [] := by
  rw [formProblems, bind_eq_ok_iff]
  constructor
  · rintro ⟨ps, hps, h⟩
    rw [List.map_eq_nil_iff.mp (Except.ok.inj h)] at hps
    exact hps
  · intro h
    exact ⟨[], h, rfl⟩

theorem isSound_and_items (c : Value) :
    (problems c = .ok [] → IsSound c) ∧
      ∀ items, c = .list items → ∀ v ∈ items, problems v = .ok [] → IsSound v := by
  -- the parts of a combinator are the items of a field, one level further down than the fields
  induction c using Value.induction with
  | list items ih =>
    refine ⟨fun h => ?_, fun items' heq v hv => ?_⟩
    · cases h
    · cases heq
      exact (ih v hv).1
  | object fs ih =>
    refine ⟨fun h => ?_, fun items' heq => by cases heq⟩
    rw [problems_object] at h
    cases hform : formOf fs with
    | all v =>
      obtain ⟨k, hmem⟩ := mem_of_formOf (.inl hform)
      rw [hform] at h
      obtain ⟨items, rfl, hne, hitems⟩ := partsProblems_eq_nil_iff.mp h
      exact .combinator (.inl hform) hne fun w hw => (ih _ hmem).2 items rfl w hw (hitems w hw)
    | any v =>
      obtain ⟨k, hmem⟩ := mem_of_formOf (.inr (.inl hform))
      rw [hform] at h
      obtain ⟨items, rfl, hne, hitems⟩ := partsProblems_eq_nil_iff.mp h
      exact .combinator (.inr hform) hne fun w hw => (ih _ hmem).2 items rfl w hw (hitems w hw)
    | negation v =>
      obtain ⟨k, hmem⟩ := mem_of_formOf (.inr (.inr hform))
      rw [hform] at h
      exact .negation hform ((ih _ hmem).1 (negationProblems_eq_nil_iff.mp h))
    | comparison =>
      rw [hform] at h
      exact .comparison hform h
  | other v hlist hobject =>
    refine ⟨fun h => ?_, fun items heq => absurd heq (hlist items)⟩
    unfold problems at h
    split at h
    · exact absurd rfl (hobject _)
    · cases h

/-- The sound conditions are those without problems. -/
theorem isSound_iff {c : Value} : IsSound c ↔ problems c = .ok [] := by
  refine ⟨fun h => ?_, (isSound_and_items c).1⟩
  induction h with
  | comparison hform hparts => rw [problems_object, hform]; exact hparts
  | combinator hform hne _ ih =>
    rw [problems_object]
    rcases hform with hform | hform
    · rw [hform]
      exact partsProblems_eq_nil_iff.mpr ⟨_, rfl, hne, ih⟩
    · rw [hform]
      exact partsProblems_eq_nil_iff.mpr ⟨_, rfl, hne, ih⟩
  | negation hform _ ih =>
    rw [problems_object, hform]
    exact negationProblems_eq_nil_iff.mpr ih

/-- The parts of a regular combinator are regular. -/
theorem isRegular_of_formOf {fs : Fields}
    (hfs : (Value.object fs).isRegular = true) {v : Value}
    (h : formOf fs = .all v ∨ formOf fs = .any v ∨ formOf fs = .negation v) :
    v.isRegular = true := by
  obtain ⟨k, hmem⟩ := mem_of_formOf h
  exact ((Value.isRegular_object fs).mp hfs).2 _ hmem

/-- A sound condition stays sound with its names in order. -/
theorem IsSound.sortKeys {c : Value} (h : IsSound c)
    (hc : c.isRegular = true) :
    IsSound (Json.sortKeys c) := by
  induction h with
  | @comparison fs hform hparts =>
    have hkeys := ((Value.isRegular_object fs).mp hc).1
    rw [Json.sortKeys_object]
    refine .comparison ?_ (comparisonProblems_inOrder hkeys hparts)
    rw [formOf_inOrder hkeys, hform]
    rfl
  | @combinator fs items hform hne _ ih =>
    have hkeys := ((Value.isRegular_object fs).mp hc).1
    have hitems := (Value.isRegular_list items).mp (isRegular_of_formOf hc (by tauto))
    rw [Json.sortKeys_object]
    have hform' : formOf fs.inOrder = .all (.list (items.map Json.sortKeys)) ∨
        formOf fs.inOrder = .any (.list (items.map Json.sortKeys)) := by
      rw [formOf_inOrder hkeys, ← Json.sortKeys_list]
      exact hform.imp (fun h => by rw [h]; rfl) fun h => by rw [h]; rfl
    refine .combinator hform' (by simpa using hne) fun v hv => ?_
    obtain ⟨w, hw, rfl⟩ := List.mem_map.mp hv
    exact ih w hw (hitems w hw)
  | @negation fs v hform _ ih =>
    have hkeys := ((Value.isRegular_object fs).mp hc).1
    have hpart := isRegular_of_formOf hc (.inr (.inr hform))
    rw [Json.sortKeys_object]
    refine .negation ?_ (ih hpart)
    rw [formOf_inOrder hkeys, hform, Form.map]

/-! ## Evaluation -/

/-- Whether the parts of a combinator hold, all of them or any. -/
def evaluateParts (data : Value) (empty : Bool) : Value → Except Failure Bool
  | .list items => if empty then evaluateAll data items else evaluateAny data items
  | v => evaluateOther empty v

/-- Whether a condition of a form holds. -/
def evaluateForm (data : Value) (fs : Fields) : Form → Except Failure Bool
  | .all v => evaluateParts data true v
  | .any v => evaluateParts data false v
  | .negation v => (evaluate data v).map (!·)
  | .comparison => evaluateComparison fs data

theorem evaluateFields_eq (data : Value) {fs : Fields} {rest : List (String × Value)}
    (h : Decides fs rest) : evaluateFields data fs rest = evaluateForm data fs (formOf fs) := by
  induction rest with
  | nil =>
    rw [evaluateFields, h.comparison]
    rfl
  | cons f rest ih =>
    obtain ⟨k, v⟩ := f
    rw [evaluateFields.eq_def]
    dsimp only
    rcases h.cases with ⟨rfl, hform⟩ | ⟨rfl, hall, hform⟩ | ⟨rfl, hall, hany, hform⟩ |
      ⟨hk, hany, hnot, hrest⟩
    · rw [if_pos rfl, hform]
      cases v <;> rfl
    · rw [if_neg (by decide), if_pos ⟨rfl, by rw [hall]; rfl⟩, hform]
      cases v <;> rfl
    · rw [if_neg (by decide), if_neg (by simp), if_pos ⟨rfl, by rw [hall]; rfl, by rw [hany]; rfl⟩,
        hform]
      rfl
    · rw [if_neg hk, if_neg, if_neg, ih hrest]
      · rintro ⟨hk', hall, hother⟩
        rw [Bool.not_eq_true'] at hall hother
        rw [hnot hk' hall] at hother
        cases hother
      · rintro ⟨hk', hall⟩
        rw [Bool.not_eq_true', hany hk'] at hall
        cases hall

theorem evaluate_object (data : Value) (fs : Fields) :
    evaluate data (.object fs) = evaluateForm data fs (formOf fs) := by
  rw [evaluate, evaluateFields_eq data (decides_self fs)]

/-- The values that the comparisons of a condition compare with have their names in order. -/
inductive OperandsInOrder : Value → Prop where
  | comparison {fs : Fields} (form : formOf fs = .comparison)
      (operand : ∀ v, Keyed.get? "value" fs = some v → Json.sortKeys v = v) :
      OperandsInOrder (.object fs)
  | combinator {fs : Fields} {items : List Value}
      (form : formOf fs = .all (.list items) ∨ formOf fs = .any (.list items))
      (parts : ∀ v ∈ items, OperandsInOrder v) : OperandsInOrder (.object fs)
  | negation {fs : Fields} {v : Value} (form : formOf fs = .negation v)
      (part : OperandsInOrder v) : OperandsInOrder (.object fs)

theorem evaluateComparison_inOrder (data : Value) {fs : Fields} (hkeys : (Keyed.keys fs).Nodup)
    (hsound : comparisonProblems fs = .ok [])
    (hoperand : ∀ v, Keyed.get? "value" fs = some v → Json.sortKeys v = v) :
    evaluateComparison fs.inOrder data = evaluateComparison fs data := by
  obtain ⟨⟨s, hfield, hs⟩, c, hc⟩ := comparisonProblems_eq_nil_iff.mp hsound
  have hfield' : Keyed.get? "field" fs.inOrder = some (.text s) := by
    rw [Fields.get?_inOrder hkeys, hfield]
    rfl
  have hvalue : Keyed.get? "value" fs.inOrder = Keyed.get? "value" fs := by
    rw [Fields.get?_inOrder hkeys]
    cases hget : Keyed.get? "value" fs with
    | none => rfl
    | some v => rw [Option.map_some, hoperand v hget]
  have htruthy : (Value.text s).isTruthy = true := by
    rw [Value.isTruthy, hs]
    rfl
  unfold evaluateComparison
  simp only [operator_inOrder hkeys hc, hc, hfield, hfield', hvalue, Option.getD_some, htruthy]
  rfl

theorem evaluateAll_map (data : Value) {f : Value → Value} {items : List Value}
    (h : ∀ v ∈ items, evaluate data (f v) = evaluate data v) :
    evaluateAll data (items.map f) = evaluateAll data items := by
  induction items with
  | nil => rfl
  | cons v rest ih =>
    obtain ⟨hv, hrest⟩ := List.forall_mem_cons.mp h
    rw [List.map_cons, evaluateAll, evaluateAll, hv, ih hrest]

theorem evaluateAny_map (data : Value) {f : Value → Value} {items : List Value}
    (h : ∀ v ∈ items, evaluate data (f v) = evaluate data v) :
    evaluateAny data (items.map f) = evaluateAny data items := by
  induction items with
  | nil => rfl
  | cons v rest ih =>
    obtain ⟨hv, hrest⟩ := List.forall_mem_cons.mp h
    rw [List.map_cons, evaluateAny, evaluateAny, hv, ih hrest]

/-- A sound condition holds of the same data with its names in order. -/
theorem evaluate_sortKeys (data : Value) {c : Value} (h : OperandsInOrder c)
    (hsound : IsSound c) (hc : c.isRegular = true) :
    evaluate data (Json.sortKeys c) = evaluate data c := by
  induction h with
  | @comparison fs hform hoperand =>
    have hkeys := ((Value.isRegular_object fs).mp hc).1
    have hproblems := isSound_iff.mp hsound
    rw [problems_object, hform] at hproblems
    rw [Json.sortKeys_object, evaluate_object, evaluate_object, formOf_inOrder hkeys, hform]
    exact evaluateComparison_inOrder data hkeys hproblems hoperand
  | @combinator fs items hform _ ih =>
    have hkeys := ((Value.isRegular_object fs).mp hc).1
    have hitems := (Value.isRegular_list items).mp (isRegular_of_formOf hc (by tauto))
    have hproblems := isSound_iff.mp hsound
    rw [problems_object] at hproblems
    have hparts : ∀ v ∈ items, evaluate data (Json.sortKeys v) = evaluate data v := by
      intro v hv
      refine ih v hv (isSound_iff.mpr ?_) (hitems v hv)
      rcases hform with hform | hform
      · rw [hform] at hproblems
        obtain ⟨_, ⟨⟩, -, hall⟩ := partsProblems_eq_nil_iff.mp hproblems
        exact hall v hv
      · rw [hform] at hproblems
        obtain ⟨_, ⟨⟩, -, hall⟩ := partsProblems_eq_nil_iff.mp hproblems
        exact hall v hv
    rw [Json.sortKeys_object, evaluate_object, evaluate_object, formOf_inOrder hkeys]
    rcases hform with hform | hform
    · rw [hform, Form.map, Json.sortKeys_list]
      exact evaluateAll_map data hparts
    · rw [hform, Form.map, Json.sortKeys_list]
      exact evaluateAny_map data hparts
  | @negation fs v hform _ ih =>
    have hkeys := ((Value.isRegular_object fs).mp hc).1
    have hpart := isRegular_of_formOf hc (.inr (.inr hform))
    have hproblems := isSound_iff.mp hsound
    rw [problems_object, hform, negationProblems_eq_nil_iff] at hproblems
    rw [Json.sortKeys_object, evaluate_object, evaluate_object, formOf_inOrder hkeys, hform]
    show (evaluate data (Json.sortKeys v)).map _ = (evaluate data v).map _
    rw [ih (isSound_iff.mpr hproblems) hpart]

end Condition
end Conveyor
