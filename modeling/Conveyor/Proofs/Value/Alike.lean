import Conveyor.Proofs.Json.Canonical
import Mathlib.Data.List.Forall2
import Mathlib.Data.Option.Basic

/-!
# Values but for the order of names

Two values are alike if they differ in nothing but the order of the names in their objects. Integers
and doubles are never alike, nor are the two zeros; a name with a null is not a name that is
missing. Putting all names in order makes alike values equal, and only those
(`alike_iff_sortKeys_eq`).
-/

namespace Conveyor

/-! ## Equal images -/

section

variable {α β : Type} {R : α → α → Prop} {f : α → β}

theorem forall₂_iff_map_eq {as bs : List α} (h : ∀ a ∈ as, ∀ b ∈ bs, R a b ↔ f a = f b) :
    List.Forall₂ R as bs ↔ as.map f = bs.map f := by
  induction as generalizing bs with
  | nil => rw [List.forall₂_nil_left_iff, List.map_nil, List.nil_eq, List.map_eq_nil_iff]
  | cons a as ih =>
    cases bs with
    | nil => exact iff_of_false (by rintro ⟨⟩) (by simp)
    | cons b bs =>
      rw [List.forall₂_cons, List.map_cons, List.map_cons, List.cons.injEq,
        h a List.mem_cons_self b List.mem_cons_self,
        ih fun a ha b hb => h a (.tail _ ha) b (.tail _ hb)]

theorem rel_iff_map_eq {a b : Option α}
    (h : ∀ x, a = some x → ∀ y, b = some y → (R x y ↔ f x = f y)) :
    Option.Rel R a b ↔ a.map f = b.map f := by
  cases a with
  | none => cases b <;> simp
  | some x =>
    cases b with
    | none => simp
    | some y => simp [h]

end

namespace Value

/-- Values that are equal but for the order of names: lists item by item, objects name by name. -/
inductive Alike : Value → Value → Prop where
  | refl (v : Value) : Alike v v
  | list {vs ws : List Value} (items : List.Forall₂ Alike vs ws) : Alike (.list vs) (.list ws)
  | object {fs gs : Fields}
      (fields : ∀ name, Option.Rel Alike (Keyed.get? name fs) (Keyed.get? name gs)) :
      Alike (.object fs) (.object gs)

theorem alike_list_iff {vs ws : List Value} :
    (Value.list vs).Alike (.list ws) ↔ List.Forall₂ Alike vs ws := by
  constructor
  · intro h
    cases h with
    | refl => exact List.forall₂_same.mpr fun v _ => .refl v
    | list items => exact items
  · exact .list

theorem alike_object_iff {fs gs : Fields} :
    (Value.object fs).Alike (.object gs) ↔
      ∀ name, Option.Rel Alike (Keyed.get? name fs) (Keyed.get? name gs) := by
  constructor
  · intro h name
    cases h with
    | refl =>
      cases Keyed.get? name fs with
      | none => exact .none
      | some v => exact .some (.refl v)
    | object fields => exact fields name
  · exact .object

/-- Any order of its names makes an object alike. -/
theorem alike_of_perm {fs gs : Fields} (hperm : fs.Perm gs) (h : fs.keys.Nodup) :
    (Value.object fs).Alike (.object gs) := by
  refine .object fun name => ?_
  rw [← Keyed.get?_perm hperm h]
  exact alike_object_iff.mp (.refl (.object fs)) name

/-- Values are alike if they are the same with their names in order. -/
theorem alike_iff_sortKeys_eq {v w : Value} (hv : v.isRegular = true)
    (hw : w.isRegular = true) : v.Alike w ↔ Json.sortKeys v = Json.sortKeys w := by
  induction v using Value.induction generalizing w with
  | list vs ih =>
    cases w with
    | list ws =>
      rw [isRegular_list] at hv hw
      rw [alike_list_iff, Json.sortKeys_list, Json.sortKeys_list, Value.list.injEq]
      exact forall₂_iff_map_eq fun v hmem w hmem' => ih v hmem (hv v hmem) (hw w hmem')
    | _ => exact iff_of_false (by rintro ⟨⟩) (by simp [Json.sortKeys])
  | object fs ih =>
    cases w with
    | object gs =>
      rw [isRegular_object] at hv hw
      have hvalues : ∀ name, Option.Rel Alike (Keyed.get? name fs) (Keyed.get? name gs) ↔
          Keyed.get? name (Keyed.mapValues Json.sortKeys fs) =
            Keyed.get? name (Keyed.mapValues Json.sortKeys gs) := by
        intro name
        rw [Keyed.get?_mapValues, Keyed.get?_mapValues]
        refine rel_iff_map_eq fun x hx y hy => ?_
        have hmem := Keyed.mem_of_get? hx
        exact ih _ hmem (hv.2 _ hmem) (hw.2 _ (Keyed.mem_of_get? hy))
      rw [alike_object_iff, Json.sortKeys_object, Json.sortKeys_object, Value.object.injEq,
        forall_congr' hvalues]
      refine (Keyed.sorted_eq_sorted_iff ?_ ?_).symm
      · rw [Keyed.keys_mapValues]
        exact hv.1
      · rw [Keyed.keys_mapValues]
        exact hw.1
    | _ => exact iff_of_false (by rintro ⟨⟩) (by simp [Json.sortKeys])
  | other v hlist hobject =>
    -- nothing is put in order in `v`, and a value that becomes `v` in order is no object either
    have hsame : Json.sortKeys v = v := by
      cases v with
      | list vs => exact absurd rfl (hlist vs)
      | object fs => exact absurd rfl (hobject fs)
      | _ => rfl
    rw [hsame]
    constructor
    · intro h
      cases h with
      | refl => exact hsame.symm
      | list => exact absurd rfl (hlist _)
      | object => exact absurd rfl (hobject _)
    · intro h
      cases w with
      | list ws => exact absurd (h.trans (Json.sortKeys_list ws)) (hlist _)
      | object gs => exact absurd (h.trans (Json.sortKeys_object gs)) (hobject _)
      | _ =>
        rw [h]
        exact .refl _

end Value
end Conveyor
