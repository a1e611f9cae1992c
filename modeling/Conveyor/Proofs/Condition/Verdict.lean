import Conveyor.Proofs.Condition
import Conveyor.Proofs.Mapping.Path

/-!
# Verdicts

Evaluating a condition without problems comes to a verdict unless it reaches a comparison that cannot be made:
one whose path misleads, one that looks for a list or an object among names, or one by text of a value that
cannot be shown. Which comparisons are reached is said by `Reaches`, which ones cannot be made by `Baffles`,
and that there is no other failure by `evaluate_baffled_iff`.
-/

namespace Conveyor.Condition

open Outcome

/-! ## Comparing -/

/-- Whether a comparison is one of the texts of two values. -/
def byText (c : Comparison) (v w : Value) : Bool :=
  match c, v with
  | .contains, .null | .contains, .list _ | .contains, .object _ => false
  | .contains, _ => true
  | .relation _, .null => false
  | .relation r, v => (Value.relate? r v w).isNone
  | _, _ => false

/-- The faults of comparing `v`, which was found, with `w`. -/
@[mk_iff]
inductive CompareFaults (c : Comparison) (v w : Value) : Fault → Prop
  /-- A list or an object is no name that an object could have. -/
  | nameless (asks : c = .contains) (names : ∃ fs, v = .object fs) (other : w.isAtom = false) :
      CompareFaults c v w .wrongKind
  /-- One of the two values has no text. -/
  | hidden (textual : byText c v w = true) (hidden : v.isShowable = false ∨ w.isShowable = false) :
      CompareFaults c v w .badValue

theorem ofTexts_eq_error_iff {test : String → String → Bool} {v w : Value} {f : Fault} :
    ofTexts test v w = .error f ↔
      (v.isShowable = false ∨ w.isShowable = false) ∧ f = .badValue := by
  rw [← Value.text?_eq_none_iff, ← Value.text?_eq_none_iff]
  unfold ofTexts
  cases v.text? with
  | none => simp [eq_comm]
  | some a => cases w.text? <;> simp [eq_comm]

theorem contains_eq_error_iff {v w : Value} {f : Fault} :
    contains v w = .error f ↔ CompareFaults .contains v w f := by
  rw [compareFaults_iff]
  cases v with
  | null | list items => simp [contains, byText]
  | object fs => cases hatom : w.isAtom <;> simp [contains, byText, hatom, @eq_comm _ f]
  | bool b | int n | float x | text s | sealed fs =>
    simp [contains, byText, ofTexts_eq_error_iff, or_comm]

theorem related_eq_error_iff {r : Value.Relation} {v w : Value} {f : Fault} (hv : v ≠ .null) :
    related r v w = .error f ↔ CompareFaults (.relation r) v w f := by
  have htext : byText (.relation r) v w = (Value.relate? r v w).isNone := by
    cases v <;> first | rfl | exact absurd rfl hv
  rw [compareFaults_iff, htext]
  unfold related
  cases Value.relate? r v w with
  | some b => simp
  | none => simp [ofTexts_eq_error_iff]

/-- Comparing fails only for what was found, and with the faults of that. -/
theorem compare_eq_error_iff {c : Comparison} {actual : Option Value} {w : Value} {f : Fault} :
    compare c actual w = .error f ↔ ∃ v, actual = some v ∧ CompareFaults c v w f := by
  cases actual with
  | none => cases c <;> simp [compare]
  | some v =>
    simp only [Option.some.injEq, exists_eq_left']
    cases c with
    | contains => exact contains_eq_error_iff
    | relation r =>
      by_cases hv : v = .null
      · subst hv
        simp [compare, compareFaults_iff, byText]
      · rw [← related_eq_error_iff hv]
        cases v <;> first | rfl | exact absurd rfl hv
    | isIn => cases w <;> simp [compare, compareFaults_iff, byText]
    | _ => simp [compare, compareFaults_iff, byText]

/-! ## Comparisons of a condition -/

/-- The operator of a comparison. -/
def operator (fs : Fields) : Except Fault (Option Comparison) :=
  Comparison.ofValue? ((Keyed.get? "operator" fs).getD (.text "eq"))

/-- The value that a comparison compares with. -/
def operand (fs : Fields) : Value := (Keyed.get? "value" fs).getD .null

/-- For this data a comparison cannot be made: its path misleads in the fields of the data, or what the path
leads to cannot be compared with the operand. -/
inductive Baffles (data : Value) (fs : Fields) : Fault → Prop
  | path {record : Fields} {path : String} (fields : data.fields? = some record)
      (field : Keyed.get? "field" fs = some (.text path)) (misleads : Mapping.Misleads record path) :
      Baffles data fs .badValue
  | value {record : Fields} {path : String} {c : Comparison} {v : Value} {f : Fault}
      (fields : data.fields? = some record) (field : Keyed.get? "field" fs = some (.text path))
      (found : Mapping.lookup record path = .ok (some v)) (asks : operator fs = .ok (some c))
      (faults : CompareFaults c v (operand fs) f) : Baffles data fs f

variable {data : Value} {fs : Fields}

theorem evaluateComparison_eq_error_iff (sound : comparisonProblems fs = .ok []) {e : Failure} :
    evaluateComparison fs data = .error e ↔ ∃ f, e = .fault f ∧ Baffles data fs f := by
  obtain ⟨⟨path, hfield, hpath⟩, c, hc⟩ := comparisonProblems_eq_nil_iff.mp sound
  have htruthy : (Value.text path).isTruthy = true := by
    rw [Value.isTruthy, hpath]
    rfl
  have hcompare : evaluateComparison fs data =
      ((actual? data (.text path)) >>= fun actual =>
        compare c actual (operand fs)).mapError Failure.fault := by
    unfold evaluateComparison
    simp only [hc, hfield, Option.getD_some, htruthy]
    cases actual? data (.text path) <;> rfl
  have hactual : ∀ x, actual? data (.text path) = x ↔
      (data.fields? = none ∧ x = .ok none) ∨
        ∃ record, data.fields? = some record ∧ Mapping.lookup record path = x := by
    intro x
    unfold actual?
    cases data.fields? <;> simp [eq_comm]
  rw [hcompare, mapError_eq_error_iff]
  simp only [bind_eq_error_iff, compare_eq_error_iff, hactual]
  constructor
  · rintro ⟨f, hf, rfl⟩
    refine ⟨f, rfl, ?_⟩
    rcases hf with (⟨-, ⟨⟩⟩ | ⟨record, hfields, hlookup⟩) | ⟨_, hlookup, v, rfl, faults⟩
    · obtain ⟨rfl, misleads⟩ := Mapping.lookup_eq_error_iff.mp hlookup
      exact .path hfields hfield misleads
    · rcases hlookup with ⟨-, ⟨⟩⟩ | ⟨record, hfields, found⟩
      exact .value hfields hfield found hc faults
  · rintro ⟨f, rfl, hf⟩
    refine ⟨f, ?_, rfl⟩
    cases hf with
    | path fields field misleads =>
      cases hfield.symm.trans field
      exact .inl (.inr ⟨_, fields, Mapping.lookup_eq_error_iff.mpr ⟨rfl, misleads⟩⟩)
    | value fields field found asks faults =>
      cases hfield.symm.trans field
      cases hc.symm.trans asks
      exact .inr ⟨_, .inr ⟨_, fields, found⟩, _, rfl, faults⟩

/-! ## Conditions -/

/-- `all` over parts or `any` over parts: what it says if there are none tells which. -/
def Form.over : Bool → Value → Form
  | true, parts => .all parts
  | false, parts => .any parts

/-- Evaluating a condition for this data comes to a comparison: the parts before it have not decided the
combinators that it is in. -/
inductive Reaches (data : Value) : Value → Fields → Prop
  | comparison {fs : Fields} (form : formOf fs = .comparison) : Reaches data (.object fs) fs
  | combinator {fs comparison : Fields} {empty : Bool} {before after : List Value} {part : Value}
      (form : formOf fs = .over empty (.list (before ++ part :: after)))
      (undecided : ∀ v ∈ before, evaluate data v = .ok empty) (part : Reaches data part comparison) :
      Reaches data (.object fs) comparison
  | negation {fs comparison : Fields} {v : Value} (form : formOf fs = .negation v)
      (part : Reaches data v comparison) : Reaches data (.object fs) comparison

theorem evaluateForm_over (data : Value) (fs : Fields) (empty : Bool) (parts : Value) :
    evaluateForm data fs (.over empty parts) = evaluateParts data empty parts := by
  cases empty <;> rfl

theorem problems_of_over {empty : Bool} {items : List Value}
    (h : formProblems fs (.over empty (.list items)) = .ok []) : ∀ v ∈ items, problems v = .ok [] := by
  cases empty with
  | true =>
    obtain ⟨_, ⟨⟩, -, parts⟩ := partsProblems_eq_nil_iff.mp h
    exact parts
  | false =>
    obtain ⟨_, ⟨⟩, -, parts⟩ := partsProblems_eq_nil_iff.mp h
    exact parts

/-- A part that does not decide leaves it to the rest. -/
theorem evaluateParts_cons (data : Value) (empty : Bool) (v : Value) (rest : List Value) :
    evaluateParts data empty (.list (v :: rest)) = evaluate data v >>= fun holds =>
      if holds = empty then evaluateParts data empty (.list rest) else .ok holds := by
  cases empty with
  | true =>
    refine congrArg (evaluate data v >>= ·) (funext fun holds => ?_)
    cases holds <;> rfl
  | false =>
    refine congrArg (evaluate data v >>= ·) (funext fun holds => ?_)
    cases holds <;> rfl

/-- Going through parts fails exactly where it comes to a part that does. -/
theorem evaluateParts_eq_error_iff {empty : Bool} {items : List Value} {e : Failure} :
    evaluateParts data empty (.list items) = .error e ↔ ∃ before part after,
      items = before ++ part :: after ∧ (∀ v ∈ before, evaluate data v = .ok empty) ∧
        evaluate data part = .error e := by
  induction items with
  | nil => cases empty <;> simp [evaluateParts, evaluateAll, evaluateAny]
  | cons v rest ih =>
    rw [evaluateParts_cons, bind_eq_error_iff]
    constructor
    · rintro (h | ⟨holds, hv, h⟩)
      · exact ⟨[], v, rest, rfl, List.forall_mem_nil _, h⟩
      · split at h
        · rename_i hempty
          obtain ⟨before, part, after, rfl, undecided, hpart⟩ := ih.mp h
          have hbefore := List.forall_mem_cons.mpr ⟨hempty ▸ hv, undecided⟩
          exact ⟨v :: before, part, after, rfl, hbefore, hpart⟩
        · cases h
    · rintro ⟨before, part, after, hitems, undecided, hpart⟩
      cases before with
      | nil =>
        cases hitems
        exact .inl hpart
      | cons w before =>
        cases hitems
        obtain ⟨hv, undecided⟩ := List.forall_mem_cons.mp undecided
        refine .inr ⟨empty, hv, ?_⟩
        rw [if_pos rfl]
        exact ih.mpr ⟨before, part, after, rfl, undecided, hpart⟩

variable {c : Value} {f : Fault}

/-- Evaluation fails at a comparison that it comes to and that cannot be made. -/
theorem evaluate_of_reaches (sound : problems c = .ok []) (reaches : Reaches data c fs)
    (baffles : Baffles data fs f) : evaluate data c = .error (.fault f) := by
  induction reaches with
  | comparison form =>
    rw [problems_object, form] at sound
    rw [evaluate_object, form]
    exact (evaluateComparison_eq_error_iff sound).mpr ⟨f, rfl, baffles⟩
  | combinator form undecided _ ih =>
    rw [problems_object, form] at sound
    rw [evaluate_object, form, evaluateForm_over]
    have hpart := ih (problems_of_over sound _ (by simp)) baffles
    exact evaluateParts_eq_error_iff.mpr ⟨_, _, _, rfl, undecided, hpart⟩
  | negation form _ ih =>
    rw [problems_object, form] at sound
    rw [evaluate_object, form, evaluateForm, ih (negationProblems_eq_nil_iff.mp sound) baffles]
    rfl

/-- There is no other failure. -/
theorem exists_reaches_of_evaluate (sound : IsSound c) {e : Failure}
    (h : evaluate data c = .error e) : ∃ f fs, e = .fault f ∧ Reaches data c fs ∧ Baffles data fs f := by
  induction sound with
  | @comparison fs form parts =>
    rw [evaluate_object, form] at h
    obtain ⟨f, rfl, baffles⟩ := (evaluateComparison_eq_error_iff parts).mp h
    exact ⟨f, fs, rfl, .comparison form, baffles⟩
  | @combinator fs items form _ _ ih =>
    obtain ⟨empty, form⟩ : ∃ empty, formOf fs = .over empty (.list items) :=
      form.elim (fun h => ⟨true, h⟩) fun h => ⟨false, h⟩
    rw [evaluate_object, form, evaluateForm_over] at h
    obtain ⟨before, part, after, rfl, undecided, hpart⟩ := evaluateParts_eq_error_iff.mp h
    obtain ⟨f, fs, rfl, reaches, baffles⟩ := ih part (by simp) hpart
    exact ⟨f, fs, rfl, .combinator form undecided reaches, baffles⟩
  | negation form _ ih =>
    rw [evaluate_object, form] at h
    obtain ⟨f, fs, rfl, reaches, baffles⟩ := ih (map_eq_error_iff.mp h)
    exact ⟨f, fs, rfl, .negation form reaches, baffles⟩

/-- A condition without problems holds or does not hold for all data, unless its evaluation comes to a
comparison that cannot be made; the faults of those are all that it fails with. -/
theorem evaluate_baffled_iff (sound : problems c = .ok []) (data : Value) :
    ((∃ holds, evaluate data c = .ok holds) ↔
        ∀ fs f, Reaches data c fs → ¬ Baffles data fs f) ∧
      ∀ e, evaluate data c = .error e ↔
        ∃ f fs, e = .fault f ∧ Reaches data c fs ∧ Baffles data fs f := by
  have herror : ∀ e, evaluate data c = .error e ↔
      ∃ f fs, e = .fault f ∧ Reaches data c fs ∧ Baffles data fs f := by
    refine fun e => ⟨exists_reaches_of_evaluate (isSound_iff.mpr sound), ?_⟩
    rintro ⟨f, fs, rfl, reaches, baffles⟩
    exact evaluate_of_reaches sound reaches baffles
  refine ⟨⟨?_, fun h => ?_⟩, herror⟩
  · rintro ⟨holds, hok⟩ fs f reaches baffles
    rw [evaluate_of_reaches sound reaches baffles] at hok
    cases hok
  · cases hevaluate : evaluate data c with
    | ok holds => exact ⟨holds, rfl⟩
    | error e =>
      obtain ⟨f, fs, -, reaches, baffles⟩ := (herror e).mp hevaluate
      exact absurd baffles (h fs f reaches)

/-- A condition on a level and on an alarm that is not there. -/
def calm : Value :=
  .object [("all", .list [
    .object [("field", .text "level"), ("operator", .text "lt"), ("value", .int 30)],
    .object [("not", .object [("field", .text "alarm"), ("operator", .text "exists")])]])]

theorem calm_decided : problems calm = .ok [] ∧
    ∀ fs f, Reaches (.object [("level", .int 21)]) calm fs →
      ¬ Baffles (.object [("level", .int 21)]) fs f := by
  have sound : problems calm = .ok [] := by decide +kernel
  exact ⟨sound, (evaluate_baffled_iff sound _).1.mp ⟨true, rfl⟩⟩

/-- A comparison without problems that has no verdict for a record. -/
def Fails (record comparison : Fields) (f : Fault) : Prop :=
  problems (.object comparison) = .ok [] ∧
    evaluate (.object record) (.object comparison) = .error (.fault f)

instance (record comparison : Fields) (f : Fault) : Decidable (Fails record comparison f) :=
  inferInstanceAs (Decidable (_ ∧ _))

/-- Three comparisons that cannot be made: a list is looked for among the names of an object, a position is
written with a raised digit, and an integer with too many digits is looked into as text. -/
theorem sound_conditions_fail :
    Fails [("m", .object [("a", .int 1)])]
        [("field", .text "m"), ("operator", .text "contains"), ("value", .list [.text "a"])]
        .wrongKind ∧
      Fails [("l", .list [.int 10])] [("field", .text "l.²"), ("value", .int 10)] .badValue ∧
      Fails [("n", .int (10 ^ 4300))]
        [("field", .text "n"), ("operator", .text "contains"), ("value", .text "1")] .badValue := by
  decide +kernel

end Conveyor.Condition
