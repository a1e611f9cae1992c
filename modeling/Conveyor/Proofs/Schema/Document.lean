import Conveyor.Pipeline.Reading
import Conveyor.Pipeline.Wire
import Conveyor.Proofs.Json.Canonical

/-!
# Reading records back

A record whose document lists its fields under names in camel case is read back field by field from
the document in canonical order.
-/

namespace Conveyor

open Schema

theorem Wire.keys_present (fields : List (String × Option Value)) :
    (Keyed.keys (Wire.present fields)).Sublist (fields.map (·.1)) := by
  induction fields with
  | nil => exact List.Sublist.slnil
  | cons f rest ih =>
    obtain ⟨name, v⟩ := f
    cases v with
    | none => exact ih.cons name
    | some v => exact ih.cons_cons name

theorem Wire.mem_present {fields : List (String × Option Value)} {name : String} {v : Value} :
    (name, v) ∈ Wire.present fields ↔ (name, some v) ∈ fields := by
  unfold Wire.present
  rw [List.mem_filterMap]
  constructor
  · rintro ⟨⟨name', v'⟩, hmem, h⟩
    obtain ⟨v'', rfl, h⟩ := Option.map_eq_some_iff.mp h
    cases h
    exact hmem
  · intro hmem
    exact ⟨_, hmem, rfl⟩

/-- What an object has under a name of a record's fields. -/
theorem Wire.get?_present {fields : List (String × Option Value)}
    (hnames : (fields.map (·.1)).Nodup) {name : String} {v : Option Value}
    (hmem : (name, v) ∈ fields) : Keyed.get? name (Wire.present fields) = v := by
  have hkeys := hnames.sublist (Wire.keys_present fields)
  apply Option.ext
  intro w
  rw [Keyed.get?_eq_some_iff hkeys, Wire.mem_present]
  constructor
  · intro hw
    have hpair : (name, some w) = (name, v) := List.inj_on_of_nodup_map hnames hw hmem rfl
    exact (Prod.mk.inj hpair).2.symm
  · rintro rfl
    exact hmem

namespace Schema

variable {α β : Type} {fs : Fields} {fields : List (String × Option Value)} {name : String}

/-- The names of a record's fields differ, and none has an underscore. -/
def CamelNames (names : List String) : Prop := names.Nodup ∧ ∀ n ∈ names, '_' ∉ n.toList

instance (names : List String) : Decidable (CamelNames names) := inferInstanceAs (Decidable (_ ∧ _))

/-- An object has what a record's fields list, in canonical order, and no field with an
underscore in its name. -/
structure Shows (fs : Fields) (fields : List (String × Option Value)) : Prop where
  get : ∀ name v, (name, v) ∈ fields → fs.get? name = v.map Json.sortKeys
  camel : ∀ key, '_' ∈ key.toList → fs.get? key = none

theorem shows_inOrder (hfields : fs = Wire.present fields)
    (hnames : CamelNames (fields.map (·.1))) : Shows fs.inOrder fields := by
  subst hfields
  have hkeys := hnames.1.sublist (Wire.keys_present fields)
  refine ⟨fun name v hmem => ?_, fun key hkey => ?_⟩
  · rw [Fields.get?_inOrder hkeys, Wire.get?_present hnames.1 hmem]
  · rw [Fields.get?_inOrder hkeys, Option.map_eq_none_iff]
    cases hget : Keyed.get? key (Wire.present fields) with
    | none => rfl
    | some v =>
      have hmem := List.mem_map_of_mem (f := (·.1)) ((Keyed.get?_eq_some_iff hkeys).mp hget)
      exact absurd hkey (hnames.2 key ((Wire.keys_present fields).subset hmem))

theorem Shows.mono {more : List (String × Option Value)} (h : Shows fs more)
    (part : List (String × Option Value)) (hsub : ∀ f ∈ part, f ∈ more) : Shows fs part :=
  ⟨fun name v hmem => h.get name v (hsub _ hmem), h.camel⟩

/-- A name in lower case is the name in camel case, or has an underscore. -/
theorem plainName_cases (name : String) :
    plainName name = name ∨ '_' ∈ (plainName name).toList := by
  unfold plainName
  by_cases h : ∃ c ∈ name.toList, c.isUpper = true
  · right
    obtain ⟨c, hc, hupper⟩ := h
    rw [String.toList_ofList, List.mem_flatMap]
    refine ⟨c, hc, ?_⟩
    rw [if_pos hupper]
    exact List.mem_cons_self
  · left
    have hsame : (name.toList.flatMap fun c => if c.isUpper then ['_', c.toLower] else [c])
        = name.toList.flatMap fun c => [c] := by
      apply List.flatMap_congr
      intro c hc
      exact if_neg fun hupper => h ⟨c, hc, hupper⟩
    rw [hsame, List.flatMap_singleton', String.ofList_toList]

/-- A field of a shown record is found under its name in camel case. -/
theorem Shows.find? (h : Shows fs fields) {v : Option Value} (hmem : (name, v) ∈ fields)
    {plain : String} (hplain : plain = name ∨ '_' ∈ plain.toList) :
    find? fs name plain = v.map fun v => (name, Json.sortKeys v) := by
  unfold Schema.find?
  have hget := h.get name v hmem
  cases v with
  | some v =>
    rw [Option.map_some] at hget
    rw [hget]
    rfl
  | none =>
    rw [Option.map_none] at hget
    rw [hget]
    rcases hplain with rfl | hplain
    · rw [hget]
      rfl
    · rw [h.camel _ hplain]
      rfl

theorem Shows.fieldNamed (h : Shows fs fields) {v : Option Value} (hmem : (name, v) ∈ fields)
    {plain : String} (hplain : plain = name ∨ '_' ∈ plain.toList) (read : Reading α)
    (absent : Checked α) :
    Schema.fieldNamed fs name plain read absent =
      match v with
      | some v => (read (Json.sortKeys v)).within (.field name)
      | none => absent := by
  rw [Schema.fieldNamed, h.find? hmem hplain]
  cases v with
  | some v => rfl
  | none => rfl

theorem Shows.required (h : Shows fs fields) (name : String) (read : Reading α) (v : Value)
    (hmem : (name, some v) ∈ fields) {a : α} (hread : read (Json.sortKeys v) = .fits a) :
    Schema.required fs name read = .fits a := by
  rw [Schema.required, h.fieldNamed hmem (plainName_cases name)]
  simp only [hread, Checked.within]

theorem Shows.withDefault (h : Shows fs fields) (name : String) (read : Reading α) (v : Value)
    (hmem : (name, some v) ∈ fields) {default a : α} (hread : read (Json.sortKeys v) = .fits a) :
    Schema.withDefault fs name read default = .fits a := by
  rw [Schema.withDefault, h.fieldNamed hmem (plainName_cases name)]
  simp only [hread, Checked.within]

theorem Shows.default (h : Shows fs fields) (name : String) (read : Reading α)
    (hmem : (name, none) ∈ fields) (default : α) :
    Schema.withDefault fs name read default = .fits default := by
  rw [Schema.withDefault, h.fieldNamed hmem (plainName_cases name)]

/-- A setting that may be left out. -/
theorem Shows.setting (h : Shows fs fields) (name : String) (read : Reading (Option α))
    (o : Option β) {enc : β → Value} {f : β → α} (hmem : (name, o.map enc) ∈ fields)
    (hread : ∀ b, read (Json.sortKeys (enc b)) = .fits (some (f b))) :
    Schema.withDefault fs name read none = .fits (o.map f) := by
  rw [Schema.withDefault, h.fieldNamed hmem (plainName_cases name)]
  cases o with
  | none => rfl
  | some b => simp only [Option.map_some, hread, Checked.within]

theorem Shows.optional (h : Shows fs fields) (name : String) (read : Reading α) (o : Option α)
    (enc : α → Value) (hmem : (name, o.map enc) ∈ fields)
    (hread : ∀ a, nullable read (Json.sortKeys (enc a)) = .fits (some a)) :
    Schema.optional fs name read = .fits o := by
  have hsetting := h.setting name (nullable read) o (f := id) hmem hread
  rwa [Option.map_id_fun] at hsetting

theorem Shows.text (h : Shows fs fields) (name : String) (o : Option String)
    (hmem : (name, Wire.text o) ∈ fields) : Schema.optional fs name Schema.text = .fits o :=
  h.optional name Schema.text o .text hmem fun _ => rfl

/-- A text with a name in lower case of its own. -/
theorem Shows.textUnder (h : Shows fs fields) (name plain : String) (o : Option String)
    (hmem : (name, Wire.text o) ∈ fields) (hplain : '_' ∈ plain.toList) :
    Schema.fieldNamed fs name plain (nullable Schema.text) (.fits none) = .fits o := by
  rw [h.fieldNamed hmem (.inr hplain)]
  cases o with
  | none => rfl
  | some s => rfl

theorem Shows.integer (h : Shows fs fields) (name : String) (o : Option Int)
    (hmem : (name, Wire.int o) ∈ fields) : Schema.optional fs name Schema.integer = .fits o :=
  h.optional name Schema.integer o .int hmem fun _ => rfl

/-- A setting that is one of several alternatives. -/
theorem Shows.named (h : Shows fs fields) (name : String) {read : Reading α} {word : α → String}
    (hread : ∀ a, read (.text (word a)) = .fits a) (o : Option α)
    (hmem : (name, Wire.named word o) ∈ fields) : Schema.optional fs name read = .fits o := by
  refine h.optional name read o _ hmem fun a => ?_
  show (read (.text (word a))).map some = _
  rw [hread a]
  rfl

/-! ## Lists and objects -/

theorem all_fits (values : List α) : Checked.all (values.map .fits) = .fits values := by
  induction values with
  | nil => rfl
  | cons a rest ih =>
    rw [List.map_cons, Checked.all, ih]
    rfl

/-- A list of records is read back if each of its records is. -/
theorem listOf_map {read : Reading α} {enc : β → Value} {f : β → α} (items : List β)
    (hread : ∀ b ∈ items, read (Json.sortKeys (enc b)) = .fits (f b)) :
    listOf read (Json.sortKeys (.list (items.map enc))) = .fits (items.map f) := by
  rw [Json.sortKeys_list, listOf, ← all_fits]
  congr 1
  apply List.ext_getElem
  · simp
  · intro i hi _
    have hlt : i < items.length := by simpa using hi
    simp [hread items[i] (List.getElem_mem hlt), Checked.within]

theorem objectOf_fits {read : Reading α} {fs : Fields} {m : Keyed α}
    (h : List.Forall₂ (fun f b => f.1 = b.1 ∧ read f.2 = .fits b.2) fs m) :
    objectOf read (.object fs) = .fits m := by
  rw [objectOf, ← all_fits]
  congr 1
  induction h with
  | nil => rfl
  | cons hf _ ih =>
    obtain ⟨hname, hread⟩ := hf
    rw [List.map_cons, List.map_cons, ih]
    simp only [hread, hname, Checked.map, Checked.within]

end Schema
end Conveyor
