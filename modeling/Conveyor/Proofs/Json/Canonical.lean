import Conveyor.Proofs.Json.RoundTrip

/-!
# The canonical document

The canonical document of a value is read back as the value with the names of all its objects in
order. Putting names in order once is enough.
-/

namespace Conveyor

/-- What holds of a list or object if it holds of its parts, and of all other values, holds of all
values. -/
theorem Value.induction {motive : Value → Prop}
    (list : ∀ items, (∀ v ∈ items, motive v) → motive (.list items))
    (object : ∀ fs, (∀ f ∈ fs, motive f.2) → motive (.object fs))
    (other : ∀ v, (∀ items, v ≠ .list items) → (∀ fs, v ≠ .object fs) → motive v) (v : Value) :
    motive v := by
  refine @Value.rec motive (fun items => ∀ v ∈ items, motive v) (fun fs => ∀ f ∈ fs, motive f.2)
    (fun f => motive f.2)
    ?null ?bool ?int ?float ?text ?list ?object ?sealed ?nil ?cons ?fieldsNil ?fieldsCons ?field v
  case list => exact list
  case object => exact object
  case nil => exact List.forall_mem_nil _
  case cons => exact fun v rest hv hrest => List.forall_mem_cons.mpr ⟨hv, hrest⟩
  case fieldsNil => exact List.forall_mem_nil _
  case fieldsCons => exact fun f rest hf hrest => List.forall_mem_cons.mpr ⟨hf, hrest⟩
  case field => exact fun k v hv => hv
  case null => exact other _ (by rintro _ ⟨⟩) (by rintro _ ⟨⟩)
  case bool => exact fun b => other _ (by rintro _ ⟨⟩) (by rintro _ ⟨⟩)
  case int => exact fun n => other _ (by rintro _ ⟨⟩) (by rintro _ ⟨⟩)
  case float => exact fun x => other _ (by rintro _ ⟨⟩) (by rintro _ ⟨⟩)
  case text => exact fun s => other _ (by rintro _ ⟨⟩) (by rintro _ ⟨⟩)
  case sealed => exact fun fs _ => other _ (by rintro _ ⟨⟩) (by rintro _ ⟨⟩)

namespace Value

variable {words : Bool}

theorem listIsLegible_iff (items : List Value) :
    listIsLegible words items = true ↔ ∀ v ∈ items, v.isLegible words = true := by
  induction items with
  | nil => simp [listIsLegible]
  | cons v rest ih => rw [listIsLegible, Bool.and_eq_true, ih, List.forall_mem_cons]

theorem fieldsAreLegible_iff (fs : List (String × Value)) :
    fieldsAreLegible words fs = true ↔ ∀ f ∈ fs, f.2.isLegible words = true := by
  induction fs with
  | nil => simp [fieldsAreLegible]
  | cons f rest ih => rw [fieldsAreLegible, Bool.and_eq_true, ih, List.forall_mem_cons]

theorem isLegible_list (items : List Value) :
    (Value.list items).isLegible words = true ↔ ∀ v ∈ items, v.isLegible words = true := by
  rw [isLegible, listIsLegible_iff]

theorem isLegible_object (fs : List (String × Value)) :
    (Value.object fs).isLegible words = true ↔
      (Keyed.keys fs).Nodup ∧ ∀ f ∈ fs, f.2.isLegible words = true := by
  rw [isLegible, Bool.and_eq_true, decide_eq_true_eq, fieldsAreLegible_iff]

theorem isRegular_list (items : List Value) :
    (Value.list items).isRegular = true ↔ ∀ v ∈ items, v.isRegular = true := by
  rw [isRegular]
  induction items with
  | nil => simp [listIsRegular]
  | cons v rest ih => rw [listIsRegular, Bool.and_eq_true, ih, List.forall_mem_cons]

theorem isRegular_object (fs : List (String × Value)) :
    (Value.object fs).isRegular = true ↔
      (Keyed.keys fs).Nodup ∧ ∀ f ∈ fs, f.2.isRegular = true := by
  have hfields : fieldsAreRegular fs = true ↔ ∀ f ∈ fs, f.2.isRegular = true := by
    induction fs with
    | nil => simp [fieldsAreRegular]
    | cons f rest ih => rw [fieldsAreRegular, Bool.and_eq_true, ih, List.forall_mem_cons]
  rw [isRegular, Bool.and_eq_true, decide_eq_true_eq, hfields]

theorem isReadable_list (items : List Value) :
    (Value.list items).isReadable = true ↔ ∀ v ∈ items, v.isReadable = true := by
  rw [isReadable]
  induction items with
  | nil => simp [listIsReadable]
  | cons v rest ih => rw [listIsReadable, Bool.and_eq_true, ih, List.forall_mem_cons]

theorem isReadable_object (fs : List (String × Value)) :
    (Value.object fs).isReadable = true ↔ ∀ f ∈ fs, f.2.isReadable = true := by
  rw [isReadable]
  induction fs with
  | nil => simp [fieldsAreReadable]
  | cons f rest ih => rw [fieldsAreReadable, Bool.and_eq_true, ih, List.forall_mem_cons]

/-- What a document without words can hold, one with words can. -/
theorem isLegible_of_isPortable {v : Value} (h : v.isPortable = true) :
    v.isLegible words = true := by
  rw [isPortable_eq] at h
  induction v using Value.induction with
  | list items ih =>
    rw [isLegible_list] at h ⊢
    exact fun v hv => ih v hv (h v hv)
  | object fs ih =>
    rw [isLegible_object] at h ⊢
    exact ⟨h.1, fun f hf => ih f hf (h.2 f hf)⟩
  | other v hlist hobject =>
    cases v with
    | float x =>
      rw [isLegible, Bool.false_and, Bool.or_false] at h
      rw [isLegible, h, Bool.true_or]
    | list items => exact absurd rfl (hlist items)
    | object fs => exact absurd rfl (hobject fs)
    | _ => exact h

end Value

/-- The fields of an object in the order of their names, at all depths. -/
def Fields.inOrder (fs : Fields) : Fields := Keyed.sorted (fs.mapValues Json.sortKeys)

namespace Json

theorem sortItems_eq (items : List Value) : sortItems items = items.map sortKeys := by
  induction items with
  | nil => rfl
  | cons v rest ih => rw [sortItems, ih, List.map_cons]

theorem sortFields_eq (fs : List (String × Value)) :
    sortFields fs = Keyed.mapValues sortKeys fs := by
  induction fs with
  | nil => rfl
  | cons f rest ih => rw [sortFields, ih]; rfl

theorem sortKeys_list (items : List Value) :
    sortKeys (.list items) = .list (items.map sortKeys) := by
  rw [sortKeys, sortItems_eq]

theorem sortKeys_object (fs : List (String × Value)) :
    sortKeys (.object fs) = .object (Fields.inOrder fs) := by
  rw [sortKeys, sortFields_eq]
  rfl

mutual

/-- Putting names in order once more changes nothing. -/
theorem sortKeys_sortKeys : ∀ v : Value, sortKeys (sortKeys v) = sortKeys v
  | .list items => by
    rw [sortKeys, sortKeys, sortItems_sortItems items]
  | .object fs => by
    rw [sortKeys, sortKeys, sortFields_eq (Keyed.sorted _), Keyed.sorted_mapValues,
      Keyed.sorted_sorted, ← Keyed.sorted_mapValues, ← sortFields_eq, sortFields_sortFields fs]
  | .null | .bool _ | .int _ | .float _ | .text _ | .sealed _ => rfl

theorem sortItems_sortItems : ∀ items : List Value,
    sortItems (sortItems items) = sortItems items
  | [] => rfl
  | v :: rest => by
    rw [sortItems, sortItems, sortKeys_sortKeys v, sortItems_sortItems rest]

theorem sortFields_sortFields : ∀ fs : List (String × Value),
    sortFields (sortFields fs) = sortFields fs
  | [] => rfl
  | (k, v) :: rest => by
    rw [sortFields, sortFields, sortKeys_sortKeys v, sortFields_sortFields rest]

end

/-- What a list or object has if its parts have it, and that does not depend on the order of names, is kept
when names are put in order. -/
theorem sortKeys_iff {P : Value → Prop} {K : List String → Prop}
    (perm : ∀ {ks ks' : List String}, ks.Perm ks' → (K ks ↔ K ks'))
    (list : ∀ items, P (.list items) ↔ ∀ v ∈ items, P v)
    (object : ∀ fs, P (.object fs) ↔ K (Keyed.keys fs) ∧ ∀ f ∈ fs, P f.2) (v : Value) :
    P (sortKeys v) ↔ P v := by
  induction v using Value.induction with
  | list items ih =>
    rw [sortKeys_list, list, list, List.forall_mem_map]
    exact forall₂_congr ih
  | object fs ih =>
    have hkeys : K (Fields.inOrder fs).keys ↔ K (Keyed.keys fs) := by
      rw [← Keyed.keys_mapValues sortKeys fs]
      exact perm ((Keyed.sorted_perm _).map _)
    have hmem : ∀ f, f ∈ Fields.inOrder fs ↔ f ∈ fs.map fun g => (g.1, sortKeys g.2) :=
      fun f => (Keyed.sorted_perm _).mem_iff
    simp only [sortKeys_object, object, hkeys, hmem, List.forall_mem_map]
    exact and_congr_right' (forall₂_congr ih)
  | other v hlist hobject =>
    cases v with
    | list items => exact absurd rfl (hlist items)
    | object fs => exact absurd rfl (hobject fs)
    | _ => exact Iff.rfl

theorem isRegular_sortKeys (v : Value) : (sortKeys v).isRegular = v.isRegular := by
  rw [Bool.eq_iff_iff]
  exact sortKeys_iff (P := fun v => v.isRegular = true) List.Perm.nodup_iff Value.isRegular_list
    Value.isRegular_object v

theorem isReadable_sortKeys (v : Value) : (sortKeys v).isReadable = v.isReadable := by
  rw [Bool.eq_iff_iff]
  refine sortKeys_iff (P := fun v => v.isReadable = true) (K := fun _ => True) (fun _ => Iff.rfl)
    Value.isReadable_list (fun fs => ?_) v
  rw [true_and, Value.isReadable_object]

theorem isLegible_sortKeys (v : Value) : (sortKeys v).isLegible true = v.isLegible true := by
  rw [Value.isLegible_eq, Value.isLegible_eq, isRegular_sortKeys, isReadable_sortKeys]

/-- The canonical document is read back as the value with its names in order. -/
theorem read?_write_canonical {v : Value} (hv : v.isLegible true = true) :
    read? (write .canonical v) = some (sortKeys v) :=
  read?_ofList canonical_isRegular ((isLegible_sortKeys v).trans hv)

end Json

namespace Fields

theorem get?_inOrder {fs : Fields} (h : (Keyed.keys fs).Nodup) (key : String) :
    Keyed.get? key fs.inOrder = (Keyed.get? key fs).map Json.sortKeys := by
  rw [inOrder, Keyed.get?_sorted (by rwa [Keyed.keys_mapValues]), Keyed.get?_mapValues]

theorem inOrder_inOrder (fs : Fields) : fs.inOrder.inOrder = fs.inOrder := by
  have h := Json.sortKeys_sortKeys (.object fs)
  rw [Json.sortKeys_object, Json.sortKeys_object] at h
  exact Value.object.inj h

end Fields
end Conveyor
