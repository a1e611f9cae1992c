import Conveyor.Proofs.Mapping.Fault

/-!
# Resolving mappings

What the columns of a record are, said of one mapping at a time: a mapping skips its column (`Skips`) or gives
it a value (`Gives`), and mappings that name different columns resolve to what they give, in their order. So
lists of mappings resolve part by part, the first failure is the failure of the whole, and nothing of the
record counts but what the mappings look up (`resolve_in_order`).
-/

namespace Conveyor.Mapping

open Outcome

/-! ## One mapping -/

/-- In this record the column of a mapping is left out: there is nothing for it, and the mapping says to
skip it then. -/
structure Skips (record : Fields) (m : FieldMapping) : Prop where
  handling : m.nullHandling = .skip
  missing : lookup record m.sourceField = .ok none ∨ lookup record m.sourceField = .ok (some .null)

/-- In this record the column of a mapping gets a value. -/
inductive Gives (record : Fields) (m : FieldMapping) : Value → Prop
  /-- There is nothing for the column, and no default: it gets a null. -/
  | null
      (missing : lookup record m.sourceField = .ok none ∨ lookup record m.sourceField = .ok (some .null))
      (handling : m.nullHandling = .useDefault) (undefined : m.defaultValue.isNull = true) :
      Gives record m .null
  /-- There is nothing for the column: it gets the default, coerced and not transformed. -/
  | default {w : Value}
      (missing : lookup record m.sourceField = .ok none ∨ lookup record m.sourceField = .ok (some .null))
      (handling : m.nullHandling = .useDefault) (defined : m.defaultValue.isNull = false)
      (coerced : coerce m.defaultValue m.dataType m.sourceField = .ok w) : Gives record m w
  /-- What the record has for the column is transformed, then coerced. -/
  | value {v u w : Value} (found : lookup record m.sourceField = .ok (some v)) (present : v ≠ .null)
      (made : transformed m v = .ok u) (coerced : coerce u m.dataType m.sourceField = .ok w) :
      Gives record m w

/-- The transform of a mapping is one there is, if it names one. -/
def KnownTransform (m : FieldMapping) : Prop :=
  ∀ name, m.transformType = some name → name.isEmpty = false → ∃ t, Transform.ofName? name = some t

variable {record record' : Fields} {m : FieldMapping} {ms before : List FieldMapping}
  {seen seen' : List String} {fields : List ResolvedField}

theorem fillMissing_eq_none_iff : fillMissing m = .ok none ↔ m.nullHandling = .skip := by
  unfold fillMissing
  cases m.nullHandling with
  | skip => simp
  | required => simp
  | useDefault =>
    cases m.defaultValue.isNull with
    | true => simp
    | false => simp [map_eq_ok_iff]

theorem fillMissing_eq_some_iff {w : Value} : fillMissing m = .ok (some w) ↔
    m.nullHandling = .useDefault ∧ (m.defaultValue.isNull = true ∧ w = .null ∨
      m.defaultValue.isNull = false ∧ coerce m.defaultValue m.dataType m.sourceField = .ok w) := by
  unfold fillMissing
  cases m.nullHandling with
  | skip => simp
  | required => simp
  | useDefault =>
    cases m.defaultValue.isNull with
    | true => simp [eq_comm]
    | false => simp [map_eq_ok_iff]

/-- A mapping for which there is nothing is filled. -/
theorem resolveField_of_missing
    (h : lookup record m.sourceField = .ok none ∨ lookup record m.sourceField = .ok (some .null)) :
    resolveField record m = fillMissing m := by
  unfold resolveField
  rcases h with h | h
  · rw [h]
    rfl
  · rw [h]
    rfl

theorem resolveField_of_present {v : Value} (h : lookup record m.sourceField = .ok (some v))
    (hv : v ≠ .null) : resolveField record m = some <$> convert m v := by
  unfold resolveField
  rw [h]
  cases v with
  | null => exact absurd rfl hv
  | _ => rfl

theorem resolveField_eq_none_iff : resolveField record m = .ok none ↔ Skips record m := by
  constructor
  · intro h
    unfold resolveField at h
    obtain ⟨found, hfound, h⟩ := bind_eq_ok_iff.mp h
    have hlookup := mapError_eq_ok_iff.mp hfound
    match found with
    | none => exact ⟨fillMissing_eq_none_iff.mp h, .inl hlookup⟩
    | some .null => exact ⟨fillMissing_eq_none_iff.mp h, .inr hlookup⟩
    | some (.bool _) | some (.int _) | some (.float _) | some (.text _) | some (.list _)
    | some (.object _) | some (.sealed _) =>
      obtain ⟨v, -, hv⟩ := map_eq_ok_iff.mp h
      cases hv
  · intro h
    rw [resolveField_of_missing h.missing]
    exact fillMissing_eq_none_iff.mpr h.handling

theorem convert_eq_ok_iff {v w : Value} : convert m v = .ok w ↔
    ∃ u, transformed m v = .ok u ∧ coerce u m.dataType m.sourceField = .ok w := by
  rw [convert_eq, bind_eq_ok_iff]

theorem resolveField_eq_some_iff {w : Value} :
    resolveField record m = .ok (some w) ↔ Gives record m w := by
  constructor
  · intro h
    have hfilled (missing : lookup record m.sourceField = .ok none ∨
        lookup record m.sourceField = .ok (some .null)) : Gives record m w := by
      rw [resolveField_of_missing missing] at h
      obtain ⟨handling, ⟨undefined, rfl⟩ | ⟨defined, coerced⟩⟩ := fillMissing_eq_some_iff.mp h
      · exact .null missing handling undefined
      · exact .default missing handling defined coerced
    cases hlookup : lookup record m.sourceField with
    | error f =>
      rw [resolveField, hlookup] at h
      cases h
    | ok found =>
      cases found with
      | none => exact hfilled (.inl hlookup)
      | some v =>
        by_cases hv : v = .null
        · subst hv
          exact hfilled (.inr hlookup)
        · rw [resolveField_of_present hlookup hv] at h
          obtain ⟨_, hconvert, ⟨⟩⟩ := map_eq_ok_iff.mp h
          obtain ⟨u, made, coerced⟩ := convert_eq_ok_iff.mp hconvert
          exact .value hlookup hv made coerced
  · intro h
    cases h with
    | null missing handling undefined =>
      rw [resolveField_of_missing missing]
      exact fillMissing_eq_some_iff.mpr ⟨handling, .inl ⟨undefined, rfl⟩⟩
    | default missing handling defined coerced =>
      rw [resolveField_of_missing missing]
      exact fillMissing_eq_some_iff.mpr ⟨handling, .inr ⟨defined, coerced⟩⟩
    | value found present made coerced =>
      rw [resolveField_of_present found present]
      exact map_eq_ok_iff.mpr ⟨_, convert_eq_ok_iff.mpr ⟨_, made, coerced⟩, rfl⟩

/-- What a mapping does with a record depends on what it looks up alone. -/
theorem resolveField_congr (h : lookup record m.sourceField = lookup record' m.sourceField) :
    resolveField record m = resolveField record' m := by
  unfold resolveField
  rw [h]

theorem KnownTransform.exists_transformOf (known : KnownTransform m) :
    ∃ t?, transformOf m = .ok t? := by
  unfold transformOf
  cases hname : m.transformType with
  | none => exact ⟨none, rfl⟩
  | some name =>
    dsimp only
    cases hempty : name.isEmpty with
    | true => exact ⟨none, rfl⟩
    | false =>
      obtain ⟨t, ht⟩ := known name hname hempty
      exact ⟨some t, by rw [ht, if_neg Bool.false_ne_true]⟩

/-- A mapping whose transform is known is never refused as invalid. -/
theorem KnownTransform.resolveField_ne (known : KnownTransform m) (record : Fields)
    (e : ValidationError) : resolveField record m ≠ .error (.validation e) := by
  intro h
  rcases (faulty_resolveField known.exists_transformOf record).announced _ h with
    ⟨_, ⟨⟩⟩ | ⟨_, ⟨⟩⟩

/-! ## Lists of mappings -/

/-- Mappings resolve to columns: each in turn gives its column or skips it. -/
inductive Resolves (record : Fields) : List FieldMapping → List ResolvedField → Prop
  | nil : Resolves record [] []
  | skip {m : FieldMapping} {ms : List FieldMapping} {fields : List ResolvedField}
      (skips : Skips record m) (rest : Resolves record ms fields) : Resolves record (m :: ms) fields
  | give {m : FieldMapping} {ms : List FieldMapping} {w : Value} {fields : List ResolvedField}
      (gives : Gives record m w) (rest : Resolves record ms fields) :
      Resolves record (m :: ms) (⟨m.destinationColumn, w⟩ :: fields)

theorem resolves_nil_iff : Resolves record [] fields ↔ fields = [] := by
  constructor
  · intro h
    cases h
    rfl
  · intro h
    rw [h]
    exact .nil

theorem resolveFrom_of_mem (h : m.destinationColumn ∈ seen) (ms : List FieldMapping) :
    resolveFrom record seen (m :: ms) = .error (.validation (.mappedTwice m.destinationColumn)) := by
  rw [resolveFrom, if_pos (by simpa using h)]

/-- A mapping of a new column is resolved before the others. -/
theorem resolveFrom_of_not_mem (h : m.destinationColumn ∉ seen) (ms : List FieldMapping) :
    resolveFrom record seen (m :: ms) = resolveField record m >>= fun v? =>
      (v?.toList.map (ResolvedField.mk m.destinationColumn) ++ ·) <$>
        resolveFrom record (m.destinationColumn :: seen) ms := by
  rw [resolveFrom, if_neg (by simpa using h)]
  cases resolveField record m with
  | error e => rfl
  | ok v? =>
    cases resolveFrom record (m.destinationColumn :: seen) ms with
    | error e => cases v? <;> rfl
    | ok more => cases v? <;> rfl

/-- Mappings resolve if they name new columns, each once, and each mapping by itself resolves. -/
theorem resolveFrom_eq_ok_iff : resolveFrom record seen ms = .ok fields ↔
    (ms.map (·.destinationColumn)).Nodup ∧ (∀ m ∈ ms, m.destinationColumn ∉ seen) ∧
      Resolves record ms fields := by
  induction ms generalizing seen fields with
  | nil => simp [resolveFrom, resolves_nil_iff, eq_comm]
  | cons m ms ih =>
    by_cases hseen : m.destinationColumn ∈ seen
    · rw [resolveFrom_of_mem hseen]
      constructor
      · intro h
        cases h
      · intro h
        exact absurd hseen (h.2.1 m List.mem_cons_self)
    · have hcolumns : (m :: ms).map (·.destinationColumn) =
          m.destinationColumn :: ms.map (·.destinationColumn) := rfl
      rw [resolveFrom_of_not_mem hseen, bind_eq_ok_iff, hcolumns, List.nodup_cons,
        List.forall_mem_cons]
      constructor
      · intro h
        obtain ⟨v?, hv, h⟩ := h
        obtain ⟨more, hmore, rfl⟩ := map_eq_ok_iff.mp h
        obtain ⟨hnodup, hnew, hresolves⟩ := ih.mp hmore
        have hfresh : m.destinationColumn ∉ ms.map (·.destinationColumn) := by
          intro hmem
          obtain ⟨m', hm', heq⟩ := List.mem_map.mp hmem
          exact hnew m' hm' (heq ▸ List.mem_cons_self)
        have hrest : ∀ m' ∈ ms, m'.destinationColumn ∉ seen :=
          fun m' hm' hmem => hnew m' hm' (List.mem_cons_of_mem _ hmem)
        refine ⟨⟨hfresh, hnodup⟩, ⟨hseen, hrest⟩, ?_⟩
        cases v? with
        | none => exact .skip (resolveField_eq_none_iff.mp hv) hresolves
        | some w => exact .give (resolveField_eq_some_iff.mp hv) hresolves
      · intro h
        obtain ⟨⟨hfresh, hnodup⟩, ⟨-, hrest⟩, hresolves⟩ := h
        have hnew : ∀ m' ∈ ms, m'.destinationColumn ∉ m.destinationColumn :: seen := by
          intro m' hm' hmem
          rcases List.mem_cons.mp hmem with heq | hmem
          · exact hfresh (List.mem_map.mpr ⟨m', hm', heq⟩)
          · exact hrest m' hm' hmem
        cases hresolves with
        | skip skips rest =>
          exact ⟨none, resolveField_eq_none_iff.mpr skips,
            map_eq_ok_iff.mpr ⟨_, ih.mpr ⟨hnodup, hnew, rest⟩, rfl⟩⟩
        | give gives rest =>
          exact ⟨some _, resolveField_eq_some_iff.mpr gives,
            map_eq_ok_iff.mpr ⟨_, ih.mpr ⟨hnodup, hnew, rest⟩, rfl⟩⟩

theorem resolve_eq_ok_iff : resolve record ms = .ok fields ↔
    (ms.map (·.destinationColumn)).Nodup ∧ Resolves record ms fields := by
  simp [resolve, resolveFrom_eq_ok_iff]

/-- The columns are those of the mappings that do not skip them, in the order of the mappings. -/
theorem Resolves.columns (h : Resolves record ms fields) :
    (fields.map (·.column)).Sublist (ms.map (·.destinationColumn)) := by
  induction h with
  | nil => exact .slnil
  | skip _ _ ih => exact .cons _ ih
  | give _ _ ih => exact .cons_cons _ ih

theorem Gives.not_skips {w : Value} (h : Gives record m w) : ¬ Skips record m := by
  intro hskips
  have hnone := resolveField_eq_none_iff.mpr hskips
  rw [resolveField_eq_some_iff.mpr h] at hnone
  cases hnone

/-- A column is left out exactly if its mapping skips it. -/
theorem Resolves.mem_columns_iff (h : Resolves record ms fields)
    (distinct : (ms.map (·.destinationColumn)).Nodup) (hm : m ∈ ms) :
    m.destinationColumn ∈ fields.map (·.column) ↔ ¬ Skips record m := by
  induction h with
  | nil => cases hm
  | @skip head ms fields skips rest ih =>
    obtain ⟨hfresh, distinct⟩ := List.nodup_cons.mp distinct
    rcases List.mem_cons.mp hm with rfl | hm
    · constructor
      · intro hmem
        exact absurd (rest.columns.subset hmem) hfresh
      · intro hnot
        exact absurd skips hnot
    · exact ih distinct hm
  | @give head ms w fields gives rest ih =>
    obtain ⟨hfresh, distinct⟩ := List.nodup_cons.mp distinct
    rcases List.mem_cons.mp hm with rfl | hm
    · exact iff_of_true List.mem_cons_self gives.not_skips
    · have hother : m.destinationColumn ≠ head.destinationColumn := by
        intro heq
        exact hfresh (List.mem_map.mpr ⟨m, hm, heq⟩)
      rw [← ih distinct hm, List.map_cons, List.mem_cons]
      exact or_iff_right hother

/-! ## Parts of lists -/

/-- Of the columns seen before only those count that the mappings name. -/
theorem resolveFrom_seen_congr
    (h : ∀ m ∈ ms, m.destinationColumn ∈ seen ↔ m.destinationColumn ∈ seen') :
    resolveFrom record seen ms = resolveFrom record seen' ms := by
  induction ms generalizing seen seen' with
  | nil => rfl
  | cons m ms ih =>
    obtain ⟨hm, hms⟩ := List.forall_mem_cons.mp h
    by_cases hseen : m.destinationColumn ∈ seen
    · rw [resolveFrom_of_mem hseen, resolveFrom_of_mem (hm.mp hseen)]
    · rw [resolveFrom_of_not_mem hseen, resolveFrom_of_not_mem (mt hm.mpr hseen), ih]
      intro m' hm'
      rw [List.mem_cons, List.mem_cons, hms m' hm']

/-- A list resolves part by part; the columns of the first part are seen before the second. -/
theorem resolveFrom_append (record : Fields) (seen : List String) (as bs : List FieldMapping) :
    resolveFrom record seen (as ++ bs) = resolveFrom record seen as >>= fun front =>
      (front ++ ·) <$>
        resolveFrom record ((as.map (·.destinationColumn)).reverse ++ seen) bs := by
  induction as generalizing seen with
  | nil =>
    show resolveFrom record seen bs = id <$> resolveFrom record seen bs
    rw [id_map]
  | cons m as ih =>
    rw [List.cons_append]
    by_cases hseen : m.destinationColumn ∈ seen
    · rw [resolveFrom_of_mem hseen, resolveFrom_of_mem hseen]
      rfl
    · have hcolumns : ((m :: as).map (·.destinationColumn)).reverse ++ seen =
          (as.map (·.destinationColumn)).reverse ++ m.destinationColumn :: seen := by simp
      rw [resolveFrom_of_not_mem hseen, resolveFrom_of_not_mem hseen, ih, hcolumns]
      cases resolveField record m with
      | error e => rfl
      | ok v? =>
        cases resolveFrom record (m.destinationColumn :: seen) as with
        | error e => rfl
        | ok front =>
          cases resolveFrom record
              ((as.map (·.destinationColumn)).reverse ++ m.destinationColumn :: seen) bs with
          | error e => rfl
          | ok back => exact congrArg Except.ok (List.append_assoc _ _ _).symm

/-- Lists of mappings that name different columns resolve one after the other. -/
theorem resolve_append {as bs : List FieldMapping}
    (distinct : ((as ++ bs).map (·.destinationColumn)).Nodup) :
    resolve record (as ++ bs) =
      resolve record as >>= fun front => (front ++ ·) <$> resolve record bs := by
  rw [List.map_append, List.nodup_append] at distinct
  obtain ⟨-, -, hapart⟩ := distinct
  unfold resolve
  rw [resolveFrom_append]
  refine congrArg (_ >>= ·) (funext fun front => congrArg (_ <$> ·) (resolveFrom_seen_congr ?_))
  intro m hm
  refine iff_of_false (fun hmem => ?_) List.not_mem_nil
  rw [List.append_nil, List.mem_reverse] at hmem
  exact hapart _ hmem _ (List.mem_map_of_mem hm) rfl

/-! ## Columns that are named twice -/

/-- A column is named twice, by `m` and by one of the mappings before it, which name different columns and all
resolve. -/
structure Repeats (record : Fields) (before : List FieldMapping) (m : FieldMapping) : Prop where
  distinct : (before.map (·.destinationColumn)).Nodup
  repeated : m.destinationColumn ∈ before.map (·.destinationColumn)
  resolved : ∀ b ∈ before, (∃ w, Gives record b w) ∨ Skips record b

/-- With known transforms the only reason to refuse mappings as invalid is a column that was seen before, and
mappings before it that resolve. -/
theorem resolveFrom_eq_validation_iff {e : ValidationError} (known : ∀ m ∈ ms, KnownTransform m) :
    resolveFrom record seen ms = .error (.validation e) ↔ ∃ before m after, ms = before ++ m :: after ∧
      (∃ front, resolveFrom record seen before = .ok front) ∧
      (m.destinationColumn ∈ seen ∨ m.destinationColumn ∈ before.map (·.destinationColumn)) ∧
      e = .mappedTwice m.destinationColumn := by
  constructor
  · intro h
    induction ms generalizing seen with
    | nil => cases h
    | cons m ms ih =>
      obtain ⟨hknown, known⟩ := List.forall_mem_cons.mp known
      by_cases hseen : m.destinationColumn ∈ seen
      · rw [resolveFrom_of_mem hseen] at h
        cases h
        exact ⟨[], m, ms, rfl, ⟨[], rfl⟩, .inl hseen, rfl⟩
      · rw [resolveFrom_of_not_mem hseen, bind_eq_error_iff] at h
        rcases h with h | ⟨v?, hv, h⟩
        · exact absurd h (hknown.resolveField_ne record e)
        · obtain ⟨before, m', after, rfl, ⟨front, hfront⟩, hmem, rfl⟩ :=
            ih known (map_eq_error_iff.mp h)
          have hresolved : ∃ front, resolveFrom record seen (m :: before) = .ok front := by
            rw [resolveFrom_of_not_mem hseen, hv, hfront]
            exact ⟨_, rfl⟩
          rw [List.mem_cons] at hmem
          refine ⟨m :: before, m', after, rfl, hresolved, ?_, rfl⟩
          rw [List.map_cons, List.mem_cons]
          tauto
  · intro h
    obtain ⟨before, m, after, rfl, ⟨front, hfront⟩, hmem, rfl⟩ := h
    have hseen : m.destinationColumn ∈ (before.map (·.destinationColumn)).reverse ++ seen := by
      rw [List.mem_append, List.mem_reverse]
      exact hmem.symm
    rw [resolveFrom_append, hfront, resolveFrom_of_mem hseen]
    rfl

theorem Resolves.resolved (h : Resolves record ms fields) :
    ∀ b ∈ ms, (∃ w, Gives record b w) ∨ Skips record b := by
  induction h with
  | nil => exact List.forall_mem_nil _
  | skip skips _ ih => exact List.forall_mem_cons.mpr ⟨.inr skips, ih⟩
  | give gives _ ih => exact List.forall_mem_cons.mpr ⟨.inl ⟨_, gives⟩, ih⟩

theorem exists_resolves (h : ∀ b ∈ ms, (∃ w, Gives record b w) ∨ Skips record b) :
    ∃ fields, Resolves record ms fields := by
  induction ms with
  | nil => exact ⟨[], .nil⟩
  | cons m ms ih =>
    obtain ⟨hm, hms⟩ := List.forall_mem_cons.mp h
    obtain ⟨fields, hfields⟩ := ih hms
    rcases hm with ⟨w, gives⟩ | skips
    · exact ⟨_, .give gives hfields⟩
    · exact ⟨_, .skip skips hfields⟩

theorem resolve_eq_validation_iff {e : ValidationError} (known : ∀ m ∈ ms, KnownTransform m) :
    resolve record ms = .error (.validation e) ↔ ∃ before m after, ms = before ++ m :: after ∧
      Repeats record before m ∧ e = .mappedTwice m.destinationColumn := by
  rw [resolve, resolveFrom_eq_validation_iff known]
  constructor
  · intro h
    obtain ⟨before, m, after, hms, ⟨front, hfront⟩, hmem, he⟩ := h
    obtain ⟨distinct, hresolves⟩ := resolve_eq_ok_iff.mp hfront
    exact ⟨before, m, after, hms,
      ⟨distinct, hmem.resolve_left List.not_mem_nil, hresolves.resolved⟩, he⟩
  · intro h
    obtain ⟨before, m, after, hms, ⟨distinct, repeated, resolved⟩, he⟩ := h
    obtain ⟨front, hfront⟩ := exists_resolves resolved
    exact ⟨before, m, after, hms, ⟨front, resolve_eq_ok_iff.mpr ⟨distinct, hfront⟩⟩, .inr repeated, he⟩

/-! ## What of the record counts -/

theorem resolveFrom_congr
    (h : ∀ m ∈ ms, lookup record m.sourceField = lookup record' m.sourceField) :
    resolveFrom record seen ms = resolveFrom record' seen ms := by
  induction ms generalizing seen with
  | nil => rfl
  | cons m ms ih =>
    obtain ⟨hm, hms⟩ := List.forall_mem_cons.mp h
    by_cases hseen : m.destinationColumn ∈ seen
    · rw [resolveFrom_of_mem hseen, resolveFrom_of_mem hseen]
    · rw [resolveFrom_of_not_mem hseen, resolveFrom_of_not_mem hseen, ih hms,
        resolveField_congr hm]

/-- Mappings that name different columns resolve one after the other, and the first failure is that of the
whole. They resolve if no column is named twice and each mapping gives its column or skips it; then the columns
are those of the mappings that do not skip them, in order. What stands in for a missing value is not
transformed. With known transforms mappings are refused as invalid exactly if a column is named twice and the
mappings before it resolve. Nothing of the record counts but what its mappings look up. -/
theorem resolve_in_order (record : Fields) :
    (∀ as bs, ((as ++ bs).map (·.destinationColumn)).Nodup →
      resolve record (as ++ bs) = (do
        let front ← resolve record as
        let back ← resolve record bs
        pure (front ++ back)) ∧
      ∀ e, resolve record as = .error e → resolve record (as ++ bs) = .error e) ∧
    (∀ ms fields, resolve record ms = .ok fields ↔
      (ms.map (·.destinationColumn)).Nodup ∧ Resolves record ms fields) ∧
    (∀ ms fields, resolve record ms = .ok fields →
      (fields.map (·.column)).Sublist (ms.map (·.destinationColumn)) ∧
      (fields.map (·.column)).Nodup ∧
      ∀ m ∈ ms, m.destinationColumn ∈ fields.map (·.column) ↔ ¬ Skips record m) ∧
    (∀ m type param,
      lookup record m.sourceField = .ok none ∨ lookup record m.sourceField = .ok (some .null) →
        resolveField record { m with transformType := type, transformParam := param } =
          resolveField record m) ∧
    (∀ ms, (∀ m ∈ ms, KnownTransform m) → ∀ e,
      resolve record ms = .error (.validation e) ↔ ∃ before m after, ms = before ++ m :: after ∧
        Repeats record before m ∧ e = .mappedTwice m.destinationColumn) ∧
    ∀ record' ms, (∀ m ∈ ms, lookup record m.sourceField = lookup record' m.sourceField) →
      resolve record ms = resolve record' ms := by
  refine ⟨fun as bs distinct => ?append, fun ms fields => resolve_eq_ok_iff, fun ms fields h => ?columns,
    fun m type param missing => ?untransformed, fun ms known e => resolve_eq_validation_iff known,
    fun record' ms h => resolveFrom_congr h⟩
  case append =>
    have happend : resolve record (as ++ bs) =
        resolve record as >>= fun front => (front ++ ·) <$> resolve record bs :=
      resolve_append distinct
    constructor
    · rw [happend]
      refine congrArg (_ >>= ·) (funext fun front => ?_)
      cases resolve record bs <;> rfl
    · intro e he
      rw [happend, he]
      rfl
  case columns =>
    obtain ⟨distinct, hresolves⟩ := resolve_eq_ok_iff.mp h
    exact ⟨hresolves.columns, hresolves.columns.nodup distinct,
      fun m hm => hresolves.mem_columns_iff distinct hm⟩
  case untransformed =>
    exact (resolveField_of_missing
      (m := { m with transformType := type, transformParam := param }) missing).trans
        (resolveField_of_missing missing).symm

/-- A rounded temperature, a note that may be missing, and a unit with a default that a transform would
change. -/
def celsius : List FieldMapping :=
  [{ sourceField := "celsius", destinationColumn := "level", transformType := some "round" },
    { sourceField := "note", destinationColumn := "note", nullHandling := .skip },
    { sourceField := "unit", destinationColumn := "unit", transformType := some "uppercase",
      defaultValue := .text "c", nullHandling := .useDefault }]

/-- A temperature without a note and a unit. -/
def chilly : Fields := [("celsius", .text "-3.5"), ("note", .null)]

/-- The level is rounded, the note is left out, the unit stays as it is; and the level cannot be named
again. -/
theorem chilly_resolved_in_order :
    (celsius.map (·.destinationColumn)).Nodup ∧ (∀ m ∈ celsius, KnownTransform m) ∧
      resolve chilly celsius = .ok [⟨"level", .int (-4)⟩, ⟨"unit", .text "c"⟩] ∧
      resolve chilly (celsius ++ celsius) = .error (.validation (.mappedTwice "level")) := by
  obtain ⟨append, resolves, -, -, validation, -⟩ := resolve_in_order chilly
  have distinct : (celsius.map (·.destinationColumn)).Nodup := by decide
  have known : ∀ m ∈ celsius, KnownTransform m := by
    intro m hm name hname _
    simp only [celsius, List.mem_cons, List.not_mem_nil, or_false] at hm
    rcases hm with rfl | rfl | rfl
    · cases hname
      exact ⟨.round, rfl⟩
    · cases hname
    · cases hname
      exact ⟨.uppercase, rfl⟩
  have hresolves : Resolves chilly celsius [⟨"level", .int (-4)⟩, ⟨"unit", .text "c"⟩] :=
    .give (.value rfl nofun rfl rfl) (.skip ⟨rfl, .inr rfl⟩
      (.give (.default (.inl rfl) rfl rfl rfl) .nil))
  have known' : ∀ m ∈ celsius ++ celsius, KnownTransform m := by
    intro m hm
    exact known m ((List.mem_append.mp hm).elim id id)
  refine ⟨distinct, known, (resolves _ _).mpr ⟨distinct, hresolves⟩,
    (validation _ known' _).mpr ⟨celsius, _, _, rfl, ?_, rfl⟩⟩
  exact ⟨distinct, by decide, hresolves.resolved⟩

end Conveyor.Mapping
