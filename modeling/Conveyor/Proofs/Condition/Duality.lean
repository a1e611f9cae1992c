import Conveyor.Proofs.Binary64.Order
import Conveyor.Proofs.Condition.Verdict
import Conveyor.Value.Order

/-!
# Duality

`all` and `any` change places under negation: they come to the same verdict, stop at the same part and fail in
the same way. Among comparisons the opposites are `neq` and `eq`, `not_exists` and `exists`, and, where there
is something to compare and no NaN in it, `lte` and `gt`, `gte` and `lt` (`evaluate_obeys_boolean_laws`).
-/

/-!
## Opposite relations

Of two values in which there is no NaN, one stands in a relation to the other exactly if it does not stand in
the opposite relation, and whether the two have an order at all does not depend on the relation
(`relate?_opposite`).
-/

namespace Conveyor.Value

/-! ### Values without a NaN -/

mutual

/-- Whether a NaN occurs in the value. -/
def holdsNan : Value → Bool
  | .float x => x.isNan
  | .list items => listHoldsNan items
  | .object fs => fieldsHoldNan fs
  | .sealed fs => fieldsHoldNan fs
  | _ => false

def listHoldsNan : List Value → Bool
  | [] => false
  | v :: rest => holdsNan v || listHoldsNan rest

def fieldsHoldNan : List (String × Value) → Bool
  | [] => false
  | (_, v) :: rest => holdsNan v || fieldsHoldNan rest

end

/-- A number that has an order with all others of its kind. -/
def IsOrdered : Int ⊕ Binary64 → Prop
  | .inl _ => True
  | .inr x => x.isNan = false

theorem isOrdered_number? {v : Value} (h : v.holdsNan = false) {x : Int ⊕ Binary64}
    (hx : v.number? = some x) : IsOrdered x := by
  cases v with
  | bool b =>
    cases hx
    trivial
  | int n =>
    cases hx
    trivial
  | float y =>
    cases hx
    exact h
  | null | text s | list items | object fs | sealed fs => cases hx

theorem exists_compareInt? {x : Binary64} (h : x.isNan = false) (n : Int) :
    ∃ o, x.compareInt? n = some o := by
  unfold Binary64.compareInt?
  rw [h, if_neg Bool.false_ne_true]
  split
  · exact ⟨_, rfl⟩
  · exact ⟨_, rfl⟩

theorem exists_compareNumbers? {x y : Int ⊕ Binary64} (hx : IsOrdered x) (hy : IsOrdered y) :
    ∃ o, compareNumbers? x y = some o := by
  cases x with
  | inl a =>
    cases y with
    | inl b => exact ⟨_, rfl⟩
    | inr y =>
      obtain ⟨o, ho⟩ := exists_compareInt? hy a
      exact ⟨o.swap, by rw [compareNumbers?, ho, Option.map_some]⟩
  | inr x =>
    cases y with
    | inl b => exact exists_compareInt? hx b
    | inr y => exact ⟨_, Binary64.compare?_eq hx hy⟩

/-! ### Opposites -/

/-- The relation that holds where another does not. -/
def Relation.opposite : Relation → Relation
  | .less => .greaterOrEqual
  | .lessOrEqual => .greater
  | .greater => .lessOrEqual
  | .greaterOrEqual => .less

theorem Relation.admits_opposite (r : Relation) (o : Ordering) :
    r.opposite.admits o = !r.admits o := by
  cases r <;> cases o <;> rfl

variable {r : Relation}

theorem relateNumbers?_opposite {x : Int ⊕ Binary64} {w : Value} (hx : IsOrdered x)
    (hw : w.holdsNan = false) :
    relateNumbers? r.opposite x w = (relateNumbers? r x w).map (!·) := by
  unfold relateNumbers?
  cases hnumber : w.number? with
  | none => rfl
  | some y =>
    obtain ⟨o, ho⟩ := exists_compareNumbers? hx (isOrdered_number? hw hnumber)
    simp only [Option.map_some, ho, Relation.admits_opposite]

-- The induction is on the value on the left: lists are decided by the first two items that differ.
mutual

theorem relate?_opposite : ∀ v w : Value, v.holdsNan = false → w.holdsNan = false →
    relate? r.opposite v w = (relate? r v w).map (!·)
  | .text a, w, _, _ => by
    cases w with
    | text b => simp only [relate?, Relation.admits_opposite, Option.map_some]
    | _ => rfl
  | .list vs, w, hv, hw => by
    cases w with
    | list ws => exact relateLists?_opposite vs ws hv hw
    | _ => rfl
  | .bool a, w, _, hw => relateNumbers?_opposite (x := .inl _) trivial hw
  | .int a, w, _, hw => relateNumbers?_opposite (x := .inl _) trivial hw
  | .float x, w, hv, hw => relateNumbers?_opposite (x := .inr x) hv hw
  | .null, _, _, _ | .object _, _, _, _ | .sealed _, _, _, _ => rfl

theorem relateLists?_opposite : ∀ vs ws : List Value, listHoldsNan vs = false →
    listHoldsNan ws = false → relateLists? r.opposite vs ws = (relateLists? r vs ws).map (!·)
  | [], ws, _, _ => by simp only [relateLists?, Relation.admits_opposite, Option.map_some]
  | v :: vs, [], _, _ => by simp only [relateLists?, Relation.admits_opposite, Option.map_some]
  | v :: vs, w :: ws, hvs, hws => by
    rw [listHoldsNan, Bool.or_eq_false_iff] at hvs hws
    obtain ⟨hv, hvs⟩ := hvs
    obtain ⟨hw, hws⟩ := hws
    rw [relateLists?, relateLists?]
    by_cases hsame : same v w = true
    · rw [if_pos hsame, if_pos hsame]
      exact relateLists?_opposite vs ws hvs hws
    · rw [if_neg hsame, if_neg hsame]
      exact relate?_opposite v w hv hw

end

end Conveyor.Value

namespace Conveyor.Condition

/-! ## Combinators -/

/-- The condition that another one does not hold. -/
def negationOf (c : Value) : Value := .object [("not", c)]

/-- The condition that all parts hold. -/
def allOf (parts : List Value) : Value := .object [("all", .list parts)]

/-- The condition that any part holds. -/
def anyOf (parts : List Value) : Value := .object [("any", .list parts)]

/-- `allOf` or `anyOf`: what it says if there are no parts tells which. -/
def partsOf : Bool → List Value → Value
  | true, parts => allOf parts
  | false, parts => anyOf parts

/-- Going through parts stops at `part`: those before it leave the verdict open, and it does not. -/
structure StopsAt (data : Value) (empty : Bool) (before : List Value) (part : Value) : Prop where
  undecided : ∀ v ∈ before, evaluate data v = .ok empty
  decided : evaluate data part ≠ .ok empty

section Combinators

variable (data : Value)

theorem evaluate_negationOf (c : Value) :
    evaluate data (negationOf c) = (evaluate data c).map (!·) := evaluate_object data _

theorem evaluate_partsOf (empty : Bool) (parts : List Value) :
    evaluate data (partsOf empty parts) = evaluateParts data empty (.list parts) := by
  cases empty with
  | true => exact evaluate_object data _
  | false => exact evaluate_object data _

theorem evaluate_negationOf_eq_ok_iff {c : Value} {holds : Bool} :
    evaluate data (negationOf c) = .ok (!holds) ↔ evaluate data c = .ok holds := by
  rw [evaluate_negationOf]
  cases evaluate data c with
  | error e => exact iff_of_false nofun nofun
  | ok b => cases b <;> cases holds <;> simp [Except.map]

/-- The negated parts decide the other way. -/
theorem evaluateParts_negationOf (empty : Bool) (parts : List Value) :
    evaluateParts data (!empty) (.list (parts.map negationOf)) =
      (evaluateParts data empty (.list parts)).map (!·) := by
  induction parts with
  | nil => cases empty <;> rfl
  | cons c rest ih =>
    rw [List.map_cons, evaluateParts_cons, evaluateParts_cons, evaluate_negationOf, ih]
    cases evaluate data c with
    | error e => rfl
    | ok b =>
      by_cases hopen : b = empty
      · subst hopen
        simp [bind, Except.bind, Except.map]
      · have hother : (!b) ≠ !empty := fun h => hopen (Bool.not_inj h)
        simp [bind, Except.bind, Except.map, hopen]

theorem evaluate_negationOf_partsOf (empty : Bool) (parts : List Value) :
    evaluate data (negationOf (partsOf empty parts)) =
      evaluate data (partsOf (!empty) (parts.map negationOf)) := by
  rw [evaluate_negationOf, evaluate_partsOf, evaluate_partsOf, evaluateParts_negationOf]

variable {data} {empty : Bool} {before : List Value} {part : Value}

/-- The part at which going through them stops gives the verdict, and nothing after it is looked at. -/
theorem StopsAt.evaluate_eq (h : StopsAt data empty before part) (after : List Value) :
    evaluate data (partsOf empty (before ++ part :: after)) = evaluate data part := by
  rw [evaluate_partsOf]
  obtain ⟨undecided, decided⟩ := h
  induction before with
  | nil =>
    rw [List.nil_append, evaluateParts_cons]
    cases hpart : evaluate data part with
    | error e => rfl
    | ok b =>
      have hb : b ≠ empty := fun h => decided (h ▸ hpart)
      simp [bind, Except.bind, hb]
  | cons c before ih =>
    obtain ⟨hc, hbefore⟩ := List.forall_mem_cons.mp undecided
    rw [List.cons_append, evaluateParts_cons, hc]
    simpa [bind, Except.bind] using ih hbefore

/-- The negated parts stop at the same place. -/
theorem stopsAt_negationOf_iff :
    StopsAt data (!empty) (before.map negationOf) (negationOf part) ↔
      StopsAt data empty before part := by
  constructor
  · intro h
    constructor
    · intro v hv
      exact (evaluate_negationOf_eq_ok_iff data).mp (h.undecided _ (List.mem_map_of_mem hv))
    · intro hpart
      exact h.decided ((evaluate_negationOf_eq_ok_iff data).mpr hpart)
  · intro h
    constructor
    · intro w hw
      obtain ⟨v, hv, rfl⟩ := List.mem_map.mp hw
      exact (evaluate_negationOf_eq_ok_iff data).mpr (h.undecided v hv)
    · intro hpart
      exact h.decided ((evaluate_negationOf_eq_ok_iff data).mp hpart)

end Combinators

/-! ## Comparisons -/

theorem compare_neq (actual : Option Value) (expected : Value) :
    compare .neq actual expected = (compare .eq actual expected).map (!·) := by
  cases actual <;> rfl

theorem compare_notExists (actual : Option Value) (expected : Value) :
    compare .notExists actual expected = (compare .exists actual expected).map (!·) := by
  cases actual with
  | none => rfl
  | some v => simp [compare, Except.map]

theorem ofTexts_not (test : String → String → Bool) (v w : Value) :
    ofTexts (fun a b => !test a b) v w = (ofTexts test v w).map (!·) := by
  unfold ofTexts
  cases v.text? with
  | none => rfl
  | some a => cases w.text? <;> rfl

/-- Values without an order have none for the opposite relation either, and are compared as the same texts. -/
theorem related_opposite {r : Value.Relation} {v w : Value} (hv : v.holdsNan = false)
    (hw : w.holdsNan = false) : related r.opposite v w = (related r v w).map (!·) := by
  unfold related
  rw [Value.relate?_opposite v w hv hw]
  cases Value.relate? r v w with
  | some b => rfl
  | none =>
    simp only [Option.map_none, Value.Relation.admits_opposite]
    exact ofTexts_not _ v w

theorem compare_relation {r : Value.Relation} {v : Value} (hv : v ≠ .null) (w : Value) :
    compare (.relation r) (some v) w = related r v w := by
  cases v with
  | null => exact absurd rfl hv
  | _ => rfl

theorem compare_opposite {r : Value.Relation} {v w : Value} (present : v ≠ .null)
    (hv : v.holdsNan = false) (hw : w.holdsNan = false) :
    compare (.relation r.opposite) (some v) w = (compare (.relation r) (some v) w).map (!·) := by
  rw [compare_relation present, compare_relation present, related_opposite hv hw]

/-- Nothing stands in no relation. -/
theorem compare_relation_missing {actual : Option Value} (h : actual = none ∨ actual = some .null)
    (r : Value.Relation) (w : Value) : compare (.relation r) actual w = .ok false := by
  rcases h with rfl | rfl
  · rfl
  · rfl

/-! ## Conditions that compare -/

/-- What a comparison compares: the value that names its field. -/
def fieldOf (fs : Fields) : Value := (Keyed.get? "field" fs).getD .null

/-- The fields of a comparison with another operator. -/
def withOperator (operator : String) (fs : Fields) : Fields :=
  Keyed.put "operator" (.text operator) fs

/-- The comparison with another operator. -/
def asking (operator : String) (fs : Fields) : Value := .object (withOperator operator fs)

section Asking

variable {data : Value} {fs : Fields} {operator : String}

theorem formOf_withOperator (operator : String) (fs : Fields) :
    formOf (withOperator operator fs) = formOf fs := by
  unfold formOf withOperator
  rw [Keyed.get?_put_other _ _ (by decide), Keyed.get?_put_other _ _ (by decide),
    Keyed.get?_put_other _ _ (by decide)]

theorem evaluate_asking (form : formOf fs = .comparison) (operator : String) :
    evaluate data (asking operator fs) = evaluateComparison (withOperator operator fs) data := by
  rw [asking, evaluate_object, formOf_withOperator, form]
  rfl

/-- A comparison that names no field is refused as it is. -/
theorem evaluate_asking_fieldless (form : formOf fs = .comparison)
    (fieldless : (fieldOf fs).isTruthy = false) (operator : String) :
    evaluate data (asking operator fs) =
      .error (.step (.invalidCondition (withOperator operator fs))) := by
  have hfield : Keyed.get? "field" (withOperator operator fs) = Keyed.get? "field" fs :=
    Keyed.get?_put_other _ _ (by decide)
  rw [evaluate_asking form, evaluateComparison, hfield]
  rw [fieldOf] at fieldless
  simp [fieldless]

/-- A comparison that names a field compares what is found there. -/
theorem evaluate_asking_field (form : formOf fs = .comparison)
    (field : (fieldOf fs).isTruthy = true) {c : Comparison}
    (named : Comparison.ofValue? (.text operator) = .ok (some c)) :
    evaluate data (asking operator fs) = (actual? data (fieldOf fs) >>= fun actual =>
      compare c actual (operand fs)).mapError Failure.fault := by
  have hfield : Keyed.get? "field" (withOperator operator fs) = Keyed.get? "field" fs :=
    Keyed.get?_put_other _ _ (by decide)
  have hvalue : Keyed.get? "value" (withOperator operator fs) = Keyed.get? "value" fs :=
    Keyed.get?_put_other _ _ (by decide)
  have hoperator : Keyed.get? "operator" (withOperator operator fs) = some (.text operator) :=
    Keyed.get?_put_same _ _ _
  rw [evaluate_asking form, evaluateComparison, hfield, hvalue, hoperator]
  rw [fieldOf] at field ⊢
  simp only [field, Option.getD_some, named]
  cases actual? data ((Keyed.get? "field" fs).getD .null) <;> rfl

/-- Comparisons that are opposite for whatever is found are opposite as conditions. -/
theorem evaluate_asking_opposite (form : formOf fs = .comparison)
    (field : (fieldOf fs).isTruthy = true) {other : String} {c d : Comparison}
    (named : Comparison.ofValue? (.text operator) = .ok (some c))
    (named' : Comparison.ofValue? (.text other) = .ok (some d))
    (opposite : ∀ actual, actual? data (fieldOf fs) = .ok actual →
      compare d actual (operand fs) = (compare c actual (operand fs)).map (!·)) :
    evaluate data (asking other fs) = (evaluate data (asking operator fs)).map (!·) := by
  rw [evaluate_asking_field form field named, evaluate_asking_field form field named']
  cases hactual : actual? data (fieldOf fs) with
  | error f => rfl
  | ok actual =>
    have hcompare := opposite actual hactual
    simp only [bind, Except.bind, hcompare]
    cases compare c actual (operand fs) <;> rfl

end Asking

/-- For all data, a negated `all` is `any` of the negated parts and a negated `any` is `all` of them, malformed
parts and failures included; both stop at the same part, and what comes after it does not count. Of comparisons
that name a field, `neq` is the negation of `eq` and `not_exists` that of `exists`; where something is found
that is not null, and there is no NaN in it or in what it is compared with, `lte` is the negation of `gt` and
`gte` that of `lt`; where nothing is found, or null, none of these four holds. Without a field, each comparison
is refused as malformed. -/
theorem evaluate_obeys_boolean_laws (data : Value) :
    (∀ parts,
      evaluate data (negationOf (allOf parts)) = evaluate data (anyOf (parts.map negationOf)) ∧
      evaluate data (negationOf (anyOf parts)) = evaluate data (allOf (parts.map negationOf))) ∧
    (∀ empty before part,
      (StopsAt data (!empty) (before.map negationOf) (negationOf part) ↔
        StopsAt data empty before part) ∧
      (StopsAt data empty before part →
        ∀ after, evaluate data (partsOf empty (before ++ part :: after)) = evaluate data part)) ∧
    ∀ fs, formOf fs = .comparison →
      ((fieldOf fs).isTruthy = false → ∀ operator, evaluate data (asking operator fs) =
        .error (.step (.invalidCondition (withOperator operator fs)))) ∧
      ((fieldOf fs).isTruthy = true →
        evaluate data (asking "neq" fs) = (evaluate data (asking "eq" fs)).map (!·) ∧
        evaluate data (asking "not_exists" fs) =
          (evaluate data (asking "exists" fs)).map (!·) ∧
        (∀ v, actual? data (fieldOf fs) = .ok (some v) → v ≠ .null → v.holdsNan = false →
          (operand fs).holdsNan = false →
            evaluate data (asking "lte" fs) = (evaluate data (asking "gt" fs)).map (!·) ∧
            evaluate data (asking "gte" fs) = (evaluate data (asking "lt" fs)).map (!·)) ∧
        (actual? data (fieldOf fs) = .ok none ∨ actual? data (fieldOf fs) = .ok (some .null) →
          ∀ operator ∈ ["lt", "lte", "gt", "gte"],
            evaluate data (asking operator fs) = .ok false)) := by
  refine ⟨fun parts => ⟨evaluate_negationOf_partsOf data true parts,
    evaluate_negationOf_partsOf data false parts⟩,
    fun empty before part => ⟨stopsAt_negationOf_iff, StopsAt.evaluate_eq⟩,
    fun fs form => ⟨evaluate_asking_fieldless form, fun field => ⟨?neq, ?notExists, ?ordered, ?missing⟩⟩⟩
  case neq =>
    exact evaluate_asking_opposite form field rfl rfl fun actual _ => compare_neq actual _
  case notExists =>
    exact evaluate_asking_opposite form field rfl rfl fun actual _ => compare_notExists actual _
  case ordered =>
    intro v found present hv hw
    have hopposite (r : Value.Relation) : ∀ actual, actual? data (fieldOf fs) = .ok actual →
        compare (.relation r.opposite) actual (operand fs) =
          (compare (.relation r) actual (operand fs)).map (!·) := by
      intro actual hactual
      cases found.symm.trans hactual
      exact compare_opposite present hv hw
    constructor
    · exact evaluate_asking_opposite form field rfl rfl (hopposite .greater)
    · exact evaluate_asking_opposite form field rfl rfl (hopposite .less)
  case missing =>
    intro missing operator hoperator
    obtain ⟨r, named⟩ : ∃ r, Comparison.ofValue? (.text operator) = .ok (some (.relation r)) := by
      simp only [List.mem_cons, List.not_mem_nil, or_false] at hoperator
      rcases hoperator with rfl | rfl | rfl | rfl
      · exact ⟨.less, rfl⟩
      · exact ⟨.lessOrEqual, rfl⟩
      · exact ⟨.greater, rfl⟩
      · exact ⟨.greaterOrEqual, rfl⟩
    obtain ⟨actual, hactual, hnothing⟩ : ∃ actual, actual? data (fieldOf fs) = .ok actual ∧
        (actual = none ∨ actual = some .null) := by
      rcases missing with h | h
      · exact ⟨none, h, .inl rfl⟩
      · exact ⟨some .null, h, .inr rfl⟩
    rw [evaluate_asking_field form field named, hactual]
    exact congrArg (Except.mapError Failure.fault) (compare_relation_missing hnothing r _)

/-- Readings of which the second has no order, and an alarm that is null. -/
def unorderly : Value :=
  .object [("readings", .list [.int 1, .object [("level", .int 2)]]), ("alarm", .null)]

/-- Whether the readings compare to others that differ from them where there is no order, so that the texts of
both are compared. -/
def textual : Fields :=
  [("field", .text "readings"), ("value", .list [.int 1, .object [("level", .int 3)]])]

/-- Comparing goes by text, and going through parts stops at one that is no condition. -/
theorem unorderly_obeys_boolean_laws :
    formOf textual = .comparison ∧ (fieldOf textual).isTruthy = true ∧
      Value.relate? .greater (.list [.int 1, .object [("level", .int 2)]]) (operand textual) = none ∧
      evaluate unorderly (asking "gt" textual) = .ok false ∧
      evaluate unorderly (asking "lte" textual) = .ok true ∧
      evaluate unorderly (asking "gt" [("field", .text "alarm"), ("value", .int 1)]) = .ok false ∧
      StopsAt unorderly true [asking "lte" textual] .null ∧
      evaluate unorderly (allOf [asking "lte" textual, .null, asking "gt" textual]) =
        .error (.step .conditionNotObject) := by
  obtain ⟨-, stops, comparisons⟩ := evaluate_obeys_boolean_laws unorderly
  have form : formOf textual = .comparison := rfl
  have field : (fieldOf textual).isTruthy = true := by decide
  obtain ⟨-, -, ordered, -⟩ := (comparisons textual form).2 field
  have hgt : evaluate unorderly (asking "gt" textual) = .ok false := by
    obtain ⟨_, hgt, rfl⟩ : ∃ holds, evaluate unorderly (asking "gt" textual) = .ok holds ∧
        holds = false := by decide +kernel
    exact hgt
  have hlte : evaluate unorderly (asking "lte" textual) = .ok true := by
    rw [(ordered _ rfl nofun rfl rfl).1, hgt]
    rfl
  obtain ⟨-, -, -, missing⟩ :=
    (comparisons [("field", .text "alarm"), ("value", .int 1)] rfl).2 (by decide)
  have hstops : StopsAt unorderly true [asking "lte" textual] .null := by
    refine ⟨fun v hv => ?_, nofun⟩
    rw [List.mem_singleton.mp hv]
    exact hlte
  exact ⟨form, field, rfl, hgt, hlte, missing (.inr rfl) "gt" (by simp), hstops,
    (stops true _ _).2 hstops [asking "gt" textual]⟩

end Conveyor.Condition
