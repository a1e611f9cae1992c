import Conveyor.Proofs.Json.Digits
import Conveyor.Proofs.Keyed
import Conveyor.Proofs.Mapping.Path
import Conveyor.Proofs.Text

/-!
# Paths to places

A place of a record can be written as a path: the names and positions on the way to it, with dots between
them. Unless a name in the record has a dot itself, this path finds what is at the place (`lookup_path`),
a null like anything else.
-/

namespace Conveyor

/-! ## Places of values -/

/-- A mark as a part of a path. -/
def Mark.text : Mark → String
  | .field name => name
  | .index i => Nat.repr i

namespace Place

/-- What is at a place of a value. -/
def valueIn? : Place → Value → Option Value
  | [], v => some v
  | .field name :: rest, .object fs => (Keyed.get? name fs).bind (valueIn? rest)
  | .index i :: rest, .list items => items[i]?.bind (valueIn? rest)
  | _ :: _, _ => none

/-- The path to a place. -/
def path (place : Place) : String := Text.joinWith "." (place.map Mark.text)

variable {place : Place} {mark : Mark} {v w : Value}

/-- The way to a place starts with a field of an object or with an item of a list. -/
theorem valueIn?_cons_eq_some_iff : valueIn? (mark :: place) v = some w ↔
    (∃ name fs u, mark = .field name ∧ v = .object fs ∧ Keyed.get? name fs = some u ∧
      place.valueIn? u = some w) ∨
    ∃ i items u, mark = .index i ∧ v = .list items ∧ items[i]? = some u ∧
      place.valueIn? u = some w := by
  constructor
  · intro h
    unfold valueIn? at h
    split at h
    · contradiction
    · rename_i name rest fs heq
      cases heq
      obtain ⟨u, hu, hw⟩ := Option.bind_eq_some_iff.mp h
      exact .inl ⟨name, fs, u, rfl, rfl, hu, hw⟩
    · rename_i i rest items heq
      cases heq
      obtain ⟨u, hu, hw⟩ := Option.bind_eq_some_iff.mp h
      exact .inr ⟨i, items, u, rfl, rfl, hu, hw⟩
    · cases h
  · rintro (⟨name, fs, u, rfl, rfl, hu, hw⟩ | ⟨i, items, u, rfl, rfl, hu, hw⟩)
    · rw [valueIn?, hu, Option.bind_some, hw]
    · rw [valueIn?, hu, Option.bind_some, hw]

end Place

/-! ## Names without dots -/

namespace Value

mutual

/-- Whether no field at any depth has a name with a dot. -/
def isDotless : Value → Bool
  | .list items => listIsDotless items
  | .object fs => fieldsAreDotless fs
  | .sealed fs => fieldsAreDotless fs
  | _ => true

def listIsDotless : List Value → Bool
  | [] => true
  | v :: rest => isDotless v && listIsDotless rest

def fieldsAreDotless : List (String × Value) → Bool
  | [] => true
  | (name, v) :: rest => !name.toList.contains '.' && isDotless v && fieldsAreDotless rest

end

theorem listIsDotless_iff (items : List Value) :
    listIsDotless items = true ↔ ∀ v ∈ items, v.isDotless = true := by
  induction items with
  | nil => simp [listIsDotless]
  | cons v rest ih => rw [listIsDotless, Bool.and_eq_true, ih, List.forall_mem_cons]

theorem fieldsAreDotless_iff (fs : List (String × Value)) :
    fieldsAreDotless fs = true ↔ ∀ f ∈ fs, '.' ∉ f.1.toList ∧ f.2.isDotless = true := by
  induction fs with
  | nil => simp [fieldsAreDotless]
  | cons f rest ih =>
    rw [fieldsAreDotless, Bool.and_eq_true, Bool.and_eq_true, ih, List.forall_mem_cons]
    simp

end Value

namespace Place

variable {place : Place} {v w : Value}

theorem dot_not_mem_natText (n : Nat) : '.' ∉ (Nat.repr n).toList := by
  intro h
  rw [Nat.repr, String.toList_ofList] at h
  exact absurd (Nat.isDigit_of_mem_toDigits (by decide) (by decide) h) (by decide)

/-- On the way to a place of a value without dotted names, no part of the path has a dot. -/
theorem dot_not_mem_text (dotless : v.isDotless = true) (found : place.valueIn? v = some w) :
    ∀ part ∈ place.map Mark.text, '.' ∉ part.toList := by
  induction place generalizing v with
  | nil => exact List.forall_mem_nil _
  | cons mark rest ih =>
    rw [List.map_cons, List.forall_mem_cons]
    rcases valueIn?_cons_eq_some_iff.mp found with
      ⟨name, fs, u, rfl, rfl, hu, hw⟩ | ⟨i, items, u, rfl, rfl, hu, hw⟩
    · have hfield := (Value.fieldsAreDotless_iff fs).mp dotless _ (Keyed.mem_of_get? hu)
      exact ⟨hfield.1, ih hfield.2 hw⟩
    · have hitem := (Value.listIsDotless_iff items).mp dotless u (List.mem_of_getElem? hu)
      exact ⟨dot_not_mem_natText i, ih hitem hw⟩

end Place

/-! ## Positions -/

namespace Mapping

open Place

theorem decimalValue?_of_isDigit {c : Char} (h : c.isDigit = true) :
    Text.decimalValue? c = some (c.toNat - 48) := by
  have hascii : c.toNat < 128 := by
    simp only [Char.isDigit, Bool.and_eq_true, decide_eq_true_eq] at h
    have hle : c.toNat ≤ 57 := h.2
    omega
  rw [Text.decimalValue?, if_pos hascii, if_pos h]

theorem natOfDigits?_toDigits (n : Nat) : Text.natOfDigits? (Nat.toDigits 10 n) = some n := by
  have hdigits : ∀ cs : List Char, (∀ c ∈ cs, c.isDigit = true) →
      cs.mapM Text.decimalValue? = some (cs.map fun c => c.toNat - 48) := by
    intro cs h
    induction cs with
    | nil => rfl
    | cons c cs ih =>
      obtain ⟨hc, hcs⟩ := List.forall_mem_cons.mp h
      rw [List.mapM_cons, decimalValue?_of_isDigit hc, ih hcs]
      rfl
  have hall : ∀ c ∈ Nat.toDigits 10 n, c.isDigit = true :=
    fun c hc => Nat.isDigit_of_mem_toDigits (by decide) (by decide) hc
  have hne : (Nat.toDigits 10 n).isEmpty = false := by simp [Nat.toDigits_ne_nil]
  rw [Text.natOfDigits?, hne, if_neg (by decide), hdigits _ hall, Option.map_some]
  exact congrArg some ((Json.numberOf_eq _).trans Nat.ofDigitChars_ten_toDigits)

/-- A position is read from its decimal text, unless this is too long for a number. -/
theorem position?_natText {i : Nat} (short : (Nat.repr i).length ≤ 4300) :
    position? (Nat.repr i) = .ok (some i) := by
  have htext : (Nat.repr i).toList = Nat.toDigits 10 i := String.toList_ofList
  have hlength : ¬ 4300 < (Nat.toDigits 10 i).length := by
    rw [← htext, String.length_toList]
    omega
  have hsigns : (Nat.toDigits 10 i).all Text.isDigitSign = true := by
    rw [List.all_eq_true]
    intro c hc
    have hdigit := decimalValue?_of_isDigit (Nat.isDigit_of_mem_toDigits (by decide) (by decide) hc)
    rw [Text.isDigitSign, hdigit]
    rfl
  have hne : (Nat.toDigits 10 i).isEmpty = false := by simp [Nat.toDigits_ne_nil]
  unfold position?
  dsimp only
  rw [htext, hsigns, hne, if_neg (by decide), if_neg hlength, natOfDigits?_toDigits]

/-! ## Lookups -/

variable {place : Place} {v w : Value}

/-- The parts of a path to a place are followed to what is there. -/
theorem follow_marks (found : place.valueIn? v = some w)
    (short : ∀ i, Mark.index i ∈ place → (Nat.repr i).length ≤ 4300) :
    follow v (place.map Mark.text) = .ok (some w) := by
  induction place generalizing v with
  | nil => exact congrArg Except.ok found
  | cons mark rest ih =>
    have hrest : ∀ i, Mark.index i ∈ rest → (Nat.repr i).length ≤ 4300 :=
      fun i hi => short i (List.mem_cons_of_mem _ hi)
    rw [List.map_cons, follow_cons_eq_ok_iff]
    rcases valueIn?_cons_eq_some_iff.mp found with
      ⟨name, fs, u, rfl, rfl, hu, hw⟩ | ⟨i, items, u, rfl, rfl, hu, hw⟩
    · exact ⟨u, congrArg Except.ok hu, ih hw hrest⟩
    · refine ⟨u, ?_, ih hw hrest⟩
      rw [descend, Mark.text, position?_natText (short i List.mem_cons_self)]
      exact congrArg Except.ok hu

/-- In a record without dotted names, the path to a place finds the value that is there. The positions on the
way have texts of at most 4300 digits, as those of all lists that there is room for. -/
theorem lookup_path {record : Fields} (dotless : (Value.object record).isDotless = true)
    (nonempty : place ≠ []) (found : place.valueIn? (.object record) = some v)
    (short : ∀ i, Mark.index i ∈ place → (Nat.repr i).length ≤ 4300) :
    lookup record place.path = .ok (some v) := by
  have hparts := dot_not_mem_text dotless found
  have hfollow := follow_marks found short
  unfold lookup Place.path
  match place, nonempty with
  | [.field name], _ =>
    -- a single name is no dotted path: the field of that name is found
    rcases valueIn?_cons_eq_some_iff.mp found with ⟨_, _, u, ⟨⟩, ⟨⟩, hu, ⟨⟩⟩ | ⟨_, _, _, ⟨⟩, _⟩
    rw [List.map_singleton, Text.joinWith, Mark.text, hu]
  | [.index i], _ => cases found
  | first :: second :: rest, _ =>
    set path := Text.joinWith "." ((first :: second :: rest).map Mark.text) with hpath
    have hdot : '.' ∈ path.toList := by
      rw [hpath, List.map_cons, List.map_cons, Text.toList_joinWith_cons]
      simp
    have habsent : record.get? path = none := by
      cases hget : record.get? path with
      | none => rfl
      | some u =>
        have hfield := (Value.fieldsAreDotless_iff record).mp dotless _ (Keyed.mem_of_get? hget)
        exact absurd hdot hfield.1
    have hsplit : Text.split '.' path = (first :: second :: rest).map Mark.text :=
      Text.split_joinWith (List.cons_ne_nil _ _) hparts
    rw [habsent, hsplit]
    simpa [hdot] using hfollow

/-- A null in a list of lists, below a field without a name and one that is named like a position. -/
def nestedNull : Fields :=
  [("", .object [("0", .list [.list [.null, .int 7], .text "0"])]), ("0", .bool true)]

theorem nestedNull_found :
    Place.path [.field "", .field "0", .index 0, .index 0] = ".0.0.0" ∧
      lookup nestedNull ".0.0.0" = .ok (some .null) := by
  have hpath : Place.path [.field "", .field "0", .index 0, .index 0] = ".0.0.0" := by decide
  refine ⟨hpath, ?_⟩
  rw [← hpath]
  refine lookup_path (by decide) (List.cons_ne_nil _ _) rfl fun i hi => ?_
  obtain rfl : i = 0 := by simpa using hi
  decide

end Mapping
end Conveyor
