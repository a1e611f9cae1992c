import Conveyor.Statement
import Conveyor.Proofs.Outcome

/-!
# What statements say

A statement before it is written: the columns that it lists with the values that go there, the columns
that it sets, and the key that picks the record. Written, a sentence is a row of parts, in which every
name is quoted and every value leaves a question mark behind, so that text and parameters come from the
same parts (`ofParts`). Whatever is synthesized is the writing of the sentence that the operation asks
for (`exists_sentence`).
-/

namespace Conveyor

open Mapping (ResolvedField)

/-- The schema of a target; an empty one is none. -/
def Target.schema? (t : Target) : Option String := t.schema.filter fun s => !s.isEmpty

namespace Statement

/-! ## Parts -/

/-- A part of a statement: words of the language, the name of a column, or a value in its place. -/
inductive Part where
  | words (text : String)
  | name (column : String)
  | value (v : Value)

/-- What is written for a part. -/
def Part.text (d : Dialect) : Part → List Char
  | .words text => text.toList
  | .name column => (quoteIdentifier d column).toList
  | .value _ => ['?']

@[simp] theorem Part.text_words (d : Dialect) (text : String) : (words text).text d = text.toList := rfl

@[simp] theorem Part.text_value (d : Dialect) (v : Value) : (value v).text d = ['?'] := rfl

def Part.value? : Part → Option Value
  | .value v => some v
  | _ => none

/-- Parts as they are written one after another. -/
def written (d : Dialect) (parts : List Part) : List Char := parts.flatMap (Part.text d)

/-- The values in their places, in order. -/
def bound (parts : List Part) : List Value := parts.filterMap Part.value?

/-- The statement of parts: its text has a question mark wherever they have a value, and its parameters
are these values. -/
def ofParts (d : Dialect) (parts : List Part) : Statement :=
  ⟨String.ofList (written d parts), bound parts⟩

/-- Items with words between neighbours. -/
def separated (sep : String) : List (List Part) → List Part
  | [] => []
  | [item] => item
  | item :: rest => item ++ .words sep :: separated sep rest

@[simp] theorem written_nil (d : Dialect) : written d [] = [] := rfl

@[simp] theorem written_cons (d : Dialect) (p : Part) (parts : List Part) :
    written d (p :: parts) = p.text d ++ written d parts := List.flatMap_cons

@[simp] theorem written_append (d : Dialect) (parts parts' : List Part) :
    written d (parts ++ parts') = written d parts ++ written d parts' := List.flatMap_append

@[simp] theorem bound_nil : bound [] = [] := rfl

@[simp] theorem bound_words (text : String) (parts : List Part) :
    bound (.words text :: parts) = bound parts := rfl

@[simp] theorem bound_name (column : String) (parts : List Part) :
    bound (.name column :: parts) = bound parts := rfl

@[simp] theorem bound_value (v : Value) (parts : List Part) :
    bound (.value v :: parts) = v :: bound parts := rfl

@[simp] theorem bound_append (parts parts' : List Part) :
    bound (parts ++ parts') = bound parts ++ bound parts' := List.filterMap_append

theorem bound_separated (sep : String) (items : List (List Part)) :
    bound (separated sep items) = items.flatMap bound := by
  induction items with
  | nil => rfl
  | cons item rest ih =>
    cases rest with
    | nil => simp [separated]
    | cons next rest => simp [separated, ih]

theorem bound_separated_names {α : Type} (sep : String) {item : α → List Part}
    (h : ∀ a, bound (item a) = []) (as : List α) : bound (separated sep (as.map item)) = [] := by
  simp [bound_separated, List.flatMap_map, h]

theorem bound_separated_values {α : Type} (sep : String) {item : α → List Part} {value : α → Value}
    (h : ∀ a, bound (item a) = [value a]) (as : List α) :
    bound (separated sep (as.map item)) = as.map value := by
  simp only [bound_separated, List.flatMap_map, h]
  exact List.map_eq_flatMap.symm

/-- Items are written with the separator between their texts. -/
theorem written_separated {α : Type} {d : Dialect} (sep : String) {item : α → List Part}
    {text : α → String} (h : ∀ a, written d (item a) = (text a).toList) (as : List α) :
    written d (separated sep (as.map item)) = (Text.joinWith sep (as.map text)).toList := by
  induction as with
  | nil => rfl
  | cons a rest ih =>
    cases rest with
    | nil => exact h a
    | cons b rest =>
      simp only [List.map_cons] at ih ⊢
      simp [separated, Text.joinWith, h a, ih, Part.text]

/-! ## Sentences -/

/-- A statement before it is written. -/
inductive Sentence where
  /-- Put a row into the table. -/
  | insert (row : List ResolvedField)
  /-- Put a row into the table, or set the updated columns of the row that has its key. -/
  | upsert (row updated : List ResolvedField) (key : String)
  /-- Set columns of the row with the key. -/
  | update (set : List ResolvedField) (key : ResolvedField)
  /-- Take out the row with the key. -/
  | delete (key : ResolvedField)
  /-- Read the whole table. -/
  | scan
  /-- A query of the author's own. -/
  | own (query : String)

/-- The table; only HANA has names for it that are quoted. -/
def tableParts (t : Target) : List Part :=
  match t.dialect, t.schema? with
  | .hana, some schema => [.name schema, .words ".", .name t.table]
  | .hana, none => [.name t.table]
  | _, _ => [.words (tableText t)]

def columnItem (f : ResolvedField) : List Part := [.name f.column]

def valueItem (f : ResolvedField) : List Part := [.value f.value]

/-- A column is set to a value. -/
def setItem (f : ResolvedField) : List Part := [.name f.column, .words " = ", .value f.value]

/-- A column is set to the value that was to be inserted, in the words of MySQL. -/
def valuesItem (f : ResolvedField) : List Part :=
  [.name f.column, .words " = VALUES(", .name f.column, .words ")"]

/-- The same in standard words. -/
def excludedItem (f : ResolvedField) : List Part :=
  [.name f.column, .words " = EXCLUDED.", .name f.column]

/-- The columns of a row, and its values in the same order. -/
def rowParts (row : List ResolvedField) : List Part :=
  [.words " ("] ++ separated "," (row.map columnItem) ++ [.words ") VALUES ("]
    ++ separated "," (row.map valueItem) ++ [.words ")"]

/-- What becomes of a row whose key is there already. A statement has to say something for it, so in MySQL
the key is set to itself if there is no other column. -/
def conflictParts (updated : List ResolvedField) (key : String) : Dialect → List Part
  | .hana => [.words " WITH PRIMARY KEY"]
  | .mysql =>
    [.words " ON DUPLICATE KEY UPDATE "] ++
      if updated.isEmpty then [.name key, .words " = ", .name key]
      else separated ", " (updated.map valuesItem)
  | .ansi =>
    [.words " ON CONFLICT (", .name key, .words ") DO "] ++
      if updated.isEmpty then [.words "NOTHING"]
      else [.words "UPDATE SET "] ++ separated ", " (updated.map excludedItem)

/-- Columns that are set to values. -/
def setParts (set : List ResolvedField) : List Part :=
  separated ", " (set.map setItem)

/-- The condition on the key. -/
def whereParts (key : ResolvedField) : List Part :=
  [.words " WHERE ", .name key.column, .words " = ", .value key.value]

namespace Sentence

/-- The parts of a sentence about a table. -/
def parts (t : Target) : Sentence → List Part
  | insert row => [.words "INSERT INTO "] ++ tableParts t ++ rowParts row
  | upsert row updated key =>
    [.words (if t.dialect = .hana then "UPSERT " else "INSERT INTO ")] ++ tableParts t ++ rowParts row
      ++ conflictParts updated key t.dialect
  | update set key => [.words "UPDATE "] ++ tableParts t ++ [.words " SET "] ++ setParts set
      ++ whereParts key
  | delete key => [.words "DELETE FROM "] ++ tableParts t ++ whereParts key
  | scan => [.words "SELECT * FROM "] ++ tableParts t
  | own query => [.words query]

/-- The sentence as a statement. -/
def statement (x : Sentence) (t : Target) : Statement := ofParts t.dialect (x.parts t)

end Sentence

/-- The field of a record that has its key. -/
def keyField? (fields : List ResolvedField) (primaryKey : Option String) : Option ResolvedField :=
  fields.find? fun f => some f.column = primaryKey

/-- The sentence that an operation asks for. A keyed operation needs a field with the key, and an update
one without it. -/
inductive AsksFor (fields : List ResolvedField) (primaryKey customQuery : Option String) :
    Operation → Sentence → Prop where
  | insert : AsksFor fields primaryKey customQuery .insert (.insert fields)
  | upsert {f : ResolvedField} (key : keyField? fields primaryKey = some f) :
      AsksFor fields primaryKey customQuery .upsert
        (.upsert fields (nonKey fields primaryKey) f.column)
  | update {f : ResolvedField} (key : keyField? fields primaryKey = some f)
      (rest : nonKey fields primaryKey ≠ []) :
      AsksFor fields primaryKey customQuery .update (.update (nonKey fields primaryKey) f)
  | delete {f : ResolvedField} (key : keyField? fields primaryKey = some f) :
      AsksFor fields primaryKey customQuery .delete (.delete f)
  | scan (unasked : ∀ q, customQuery = some q → Text.isBlankText q = true) :
      AsksFor fields primaryKey customQuery .select .scan
  | own {q : String} (asked : customQuery = some q) (text : Text.isBlankText q = false) :
      AsksFor fields primaryKey customQuery .select (.own q)

/-- The record has not what the operation needs of it. -/
def Lacks (fields : List ResolvedField) (primaryKey : Option String) (op : Operation) : Prop :=
  isKeyed op = true ∧ (∀ f ∈ fields, some f.column ≠ primaryKey) ∨
    op = .update ∧ ∀ f ∈ fields, some f.column = primaryKey

variable {t : Target} {fields : List ResolvedField} {op : Operation}
  {primaryKey customQuery : Option String} {s : Statement}

/-! ## Writing -/

@[simp] theorem ofParts_text (d : Dialect) (parts : List Part) :
    (ofParts d parts).text = String.ofList (written d parts) := rfl

@[simp] theorem ofParts_params (d : Dialect) (parts : List Part) :
    (ofParts d parts).params = bound parts := rfl

theorem eq_ofParts {s : Statement} {d : Dialect} {parts : List Part}
    (text : s.text.toList = written d parts) (params : s.params = bound parts) :
    s = ofParts d parts := by
  obtain ⟨stext, sparams⟩ := s
  simp only at text params
  rw [ofParts, ← text, ← params, String.ofList_toList]

/-- A target has no schema, or one with a name. -/
theorem schema?_cases (d : Dialect) (table : String) (schema : Option String) :
    (schema.getD "" = "" ∧ Target.schema? ⟨d, table, schema⟩ = none) ∨
      ∃ name, schema = some name ∧ name ≠ "" ∧ Target.schema? ⟨d, table, schema⟩ = some name := by
  cases schema with
  | none => exact .inl ⟨rfl, rfl⟩
  | some name => by_cases h : name = "" <;> simp [Target.schema?, Option.filter, h]

theorem written_tableParts (t : Target) : written t.dialect (tableParts t) = (tableText t).toList := by
  obtain ⟨d, table, schema⟩ := t
  rcases schema?_cases d table schema with ⟨hempty, hnone⟩ | ⟨name, rfl, hname, hsome⟩
  · cases d <;> simp [tableParts, tableText, hnone, hempty, Part.text]
  · cases d <;> simp [tableParts, tableText, hsome, hname, Part.text]

theorem written_columnItem (d : Dialect) (f : ResolvedField) :
    written d (columnItem f) = (quoteIdentifier d f.column).toList := by
  simp [columnItem, Part.text]

theorem written_valueItem (d : Dialect) (f : ResolvedField) :
    written d (valueItem f) = "?".toList := by
  simp [valueItem]

theorem written_setItem (d : Dialect) (f : ResolvedField) :
    written d (setItem f) = (quoteIdentifier d f.column ++ " = ?").toList := by
  simp [setItem, Part.text]

theorem written_valuesItem (d : Dialect) (f : ResolvedField) :
    written d (valuesItem f) =
      (quoteIdentifier d f.column ++ " = VALUES(" ++ quoteIdentifier d f.column ++ ")").toList := by
  simp [valuesItem, Part.text]

theorem written_excludedItem (d : Dialect) (f : ResolvedField) :
    written d (excludedItem f) =
      (quoteIdentifier d f.column ++ " = EXCLUDED." ++ quoteIdentifier d f.column).toList := by
  simp [excludedItem, Part.text]

/-- A row is written in the same order as its columns and values. -/
theorem written_rowParts (d : Dialect) (row : List ResolvedField) :
    written d (rowParts row) =
      (" (" ++ Text.joinWith "," (columnNames d row) ++ ") VALUES (" ++ placeholders row ++ ")").toList := by
  simp [rowParts, written_separated "," (written_columnItem d),
    written_separated "," (written_valueItem d), columnNames, placeholders]

@[simp] theorem bound_rowParts (row : List ResolvedField) : bound (rowParts row) = values row := by
  have hnames : bound (separated "," (row.map columnItem)) = [] :=
    bound_separated_names "," (fun _ => rfl) row
  have hvalues : bound (separated "," (row.map valueItem)) = values row :=
    bound_separated_values "," (fun _ => rfl) row
  simp [rowParts, hnames, hvalues]

theorem written_setParts (d : Dialect) (set : List ResolvedField) :
    written d (setParts set) =
      (Text.joinWith ", " (set.map fun f => quoteIdentifier d f.column ++ " = ?")).toList :=
  written_separated ", " (written_setItem d) set

@[simp] theorem bound_setParts (set : List ResolvedField) : bound (setParts set) = values set :=
  bound_separated_values ", " (fun _ => rfl) set

theorem written_whereParts (d : Dialect) (key : ResolvedField) :
    written d (whereParts key) = (whereText d (some key.column)).toList := by
  simp [whereParts, whereText, Part.text]

@[simp] theorem bound_tableParts (t : Target) : bound (tableParts t) = [] := by
  unfold tableParts
  split <;> rfl

@[simp] theorem bound_conflictParts (updated : List ResolvedField) (key : String) (d : Dialect) :
    bound (conflictParts updated key d) = [] := by
  cases d with
  | hana => rfl
  | mysql =>
    simp only [conflictParts, bound_append]
    split
    · rfl
    · exact bound_separated_names ", " (fun _ => rfl) updated
  | ansi =>
    simp only [conflictParts, bound_append]
    split
    · rfl
    · exact bound_separated_names ", " (fun _ => rfl) updated

theorem mem_nonKey {f : ResolvedField} :
    f ∈ nonKey fields primaryKey ↔ f ∈ fields ∧ some f.column ≠ primaryKey := by
  simp [nonKey]

/-- What becomes of a row that is there already, where the dialect has words for it. -/
theorem written_conflictParts {d : Dialect} (hd : d ≠ .hana) (fields : List ResolvedField)
    (key : String) :
    written d (conflictParts (nonKey fields (some key)) key d) =
      (conflictText d fields (some key)).toList := by
  generalize hothers : nonKey fields (some key) = updated
  cases d with
  | hana => exact absurd rfl hd
  | mysql =>
    have hsets : written .mysql (separated ", " (updated.map valuesItem)) =
        (Text.joinWith ", " (updated.map ((fun c => c ++ " = VALUES(" ++ c ++ ")") ∘
          fun f => quoteIdentifier .mysql f.column))).toList :=
      written_separated ", " (written_valuesItem .mysql) updated
    unfold conflictText
    simp only [conflictParts, hothers, columnNames, List.isEmpty_map, List.map_map,
      Option.getD_some, written_append, String.toList_append]
    split
    · simp only [written_cons, written_nil, Part.text, List.append_nil, String.toList_append,
        List.append_assoc]
    · simp only [written_cons, written_nil, Part.text, List.append_nil, hsets]
  | ansi =>
    have hsets : written .ansi (separated ", " (updated.map excludedItem)) =
        (Text.joinWith ", " (updated.map ((fun c => c ++ " = EXCLUDED." ++ c) ∘
          fun f => quoteIdentifier .ansi f.column))).toList :=
      written_separated ", " (written_excludedItem .ansi) updated
    unfold conflictText
    simp only [conflictParts, hothers, columnNames, List.isEmpty_map, List.map_map,
      Option.getD_some, written_append, String.toList_append]
    split
    · simp only [written_cons, written_nil, Part.text, List.append_nil, List.append_assoc]
    · simp only [written_cons, written_nil, written_append, Part.text, List.append_nil, hsets,
        String.toList_append, List.append_assoc]

/-! ## Synthesis -/

theorem insertText_eq (verb : String) (t : Target) (row : List ResolvedField) :
    (insertText verb t row).toList =
      written t.dialect ([.words (verb ++ " ")] ++ tableParts t ++ rowParts row) := by
  simp [insertText, written_tableParts, written_rowParts, Part.text]

theorem insert_eq (t : Target) (fields : List ResolvedField) :
    insert t fields = (Sentence.insert fields).statement t :=
  eq_ofParts (insertText_eq "INSERT INTO" t fields) (by simp [insert, Sentence.parts])

theorem column_of_keyField? {f : ResolvedField} (h : keyField? fields primaryKey = some f) :
    some f.column = primaryKey := by
  simpa using List.find?_some h

theorem keyField?_eq_none_iff :
    keyField? fields primaryKey = none ↔ ∀ f ∈ fields, some f.column ≠ primaryKey := by
  simp [keyField?]

theorem nonKey_eq_nil_iff :
    nonKey fields primaryKey = [] ↔ ∀ f ∈ fields, some f.column = primaryKey := by
  simp [nonKey]

theorem keyValue_eq_ok_iff {v : Value} :
    keyValue fields primaryKey = .ok v ↔
      ∃ f, keyField? fields primaryKey = some f ∧ f.value = v := by
  unfold keyValue keyField?
  cases fields.find? fun f => some f.column = primaryKey with
  | none => simp
  | some f => simp

theorem keyValue_eq_error (h : keyField? fields primaryKey = none) :
    keyValue fields primaryKey = .error (.mapping (.keylessRecord primaryKey)) := by
  unfold keyField? at h
  rw [keyValue, h]

/-- The statement of an upsert whose key has a value. -/
theorem upsert_eq {f : ResolvedField}
    (key : keyField? fields primaryKey = some f) :
    upsert t fields primaryKey =
      .ok ((Sentence.upsert fields (nonKey fields primaryKey) f.column).statement t) := by
  obtain rfl := column_of_keyField? key
  have hvalue : keyValue fields (some f.column) = .ok f.value :=
    keyValue_eq_ok_iff.mpr ⟨f, key, rfl⟩
  refine (congrArg (· >>= _) hvalue).trans ?_
  have hbound : values fields =
      bound ((Sentence.upsert fields (nonKey fields (some f.column)) f.column).parts t) := by
    simp [Sentence.parts]
  obtain ⟨d, table, schema⟩ := t
  by_cases hd : d = .hana
  · subst hd
    refine congrArg Except.ok (eq_ofParts ?_ hbound)
    rw [String.toList_append, insertText_eq]
    simp only [Sentence.parts, if_pos, conflictParts, written_append, List.append_assoc]
    rfl
  · have hconflict := written_conflictParts hd fields f.column
    have hparts : (insertText "INSERT INTO" ⟨d, table, schema⟩ fields ++
          conflictText d fields (some f.column)).toList =
        written d ((Sentence.upsert fields (nonKey fields (some f.column)) f.column).parts
          ⟨d, table, schema⟩) := by
      rw [String.toList_append, insertText_eq, ← hconflict]
      simp only [Sentence.parts, if_neg hd, written_append, List.append_assoc]
      rfl
    cases d with
    | hana => exact absurd rfl hd
    | mysql | ansi => exact congrArg Except.ok (eq_ofParts hparts hbound)

/-- The statement of a deletion whose key has a value. -/
theorem delete_eq {f : ResolvedField}
    (key : keyField? fields primaryKey = some f) :
    delete t fields primaryKey = .ok ((Sentence.delete f).statement t) := by
  obtain rfl := column_of_keyField? key
  have hvalue : keyValue fields (some f.column) = .ok f.value :=
    keyValue_eq_ok_iff.mpr ⟨f, key, rfl⟩
  refine (congrArg (· >>= _) hvalue).trans (congrArg Except.ok (eq_ofParts ?_ ?_))
  · simp [Sentence.parts, written_tableParts, written_whereParts, Part.text]
  · simp [Sentence.parts, whereParts]

/-- The statement of an update whose key has a value and that has something to set. -/
theorem update_eq {f : ResolvedField}
    (key : keyField? fields primaryKey = some f)
    (rest : nonKey fields primaryKey ≠ []) :
    update t fields primaryKey =
      .ok ((Sentence.update (nonKey fields primaryKey) f).statement t) := by
  obtain rfl := column_of_keyField? key
  have hvalue : keyValue fields (some f.column) = .ok f.value :=
    keyValue_eq_ok_iff.mpr ⟨f, key, rfl⟩
  refine (congrArg (· >>= _) hvalue).trans ?_
  refine (if_neg (by simpa using rest)).trans (congrArg Except.ok (eq_ofParts ?_ ?_))
  · simp [Sentence.parts, written_tableParts, written_setParts, written_whereParts, Part.text]
  · simp [Sentence.parts, whereParts]

theorem select_eq (t : Target) (fields : List ResolvedField) (primaryKey customQuery : Option String) :
    ∃ x, AsksFor fields primaryKey customQuery .select x ∧ select t customQuery = x.statement t := by
  have hscan : Sentence.scan.statement t = ⟨"SELECT * FROM " ++ tableText t, []⟩ := by
    refine (eq_ofParts ?_ ?_).symm
    · simp [Sentence.parts, written_tableParts, Part.text]
    · simp [Sentence.parts]
  cases customQuery with
  | none => exact ⟨.scan, .scan nofun, hscan.symm⟩
  | some q =>
    cases hq : Text.isBlankText q with
    | true =>
      refine ⟨.scan, .scan ?_, ?_⟩
      · rintro _ ⟨⟩
        exact hq
      · rw [hscan, select, if_pos hq]
    | false =>
      refine ⟨.own q, .own rfl hq, ?_⟩
      rw [select, if_neg (by simp [hq])]
      exact eq_ofParts (by simp [Sentence.parts, Part.text]) rfl

/-- All that can come of synthesizing: the operation cannot be written in the dialect, or the record lacks
something, or the statement is that of the sentence that the operation asks for. -/
inductive Synthesized (t : Target) (fields : List ResolvedField)
    (primaryKey customQuery : Option String) (op : Operation) : Except Failure Statement → Prop where
  | unwritable {cause : IssueCause} (issue : operationIssue? op t.dialect primaryKey = some cause) :
      Synthesized t fields primaryKey customQuery op
        (.error (.config [⟨[.field "queryType"], cause⟩]))
  | lacking {e : MappingError} (writable : operationIssue? op t.dialect primaryKey = none)
      (lacks : Lacks fields primaryKey op) :
      Synthesized t fields primaryKey customQuery op (.error (.mapping e))
  | written {x : Sentence} (writable : operationIssue? op t.dialect primaryKey = none)
      (asks : AsksFor fields primaryKey customQuery op x) :
      Synthesized t fields primaryKey customQuery op (.ok (x.statement t))

theorem synthesized (t : Target) (fields : List ResolvedField)
    (primaryKey customQuery : Option String) (op : Operation) :
    Synthesized t fields primaryKey customQuery op
      (synthesize t fields (some op) primaryKey customQuery) := by
  unfold synthesize
  rw [Option.bind_some]
  cases hissue : operationIssue? op t.dialect primaryKey with
  | some cause => exact .unwritable hissue
  | none =>
    simp only
    cases op with
    | insert =>
      rw [insert_eq]
      exact .written hissue .insert
    | select =>
      obtain ⟨x, asks, hx⟩ := select_eq t fields primaryKey customQuery
      rw [hx]
      exact .written hissue asks
    | upsert =>
      cases hkey : keyField? fields primaryKey with
      | none =>
        rw [upsert, keyValue_eq_error hkey]
        exact .lacking hissue (.inl ⟨rfl, keyField?_eq_none_iff.mp hkey⟩)
      | some f =>
        rw [upsert_eq hkey]
        exact .written hissue (.upsert hkey)
    | delete =>
      cases hkey : keyField? fields primaryKey with
      | none =>
        rw [delete, keyValue_eq_error hkey]
        exact .lacking hissue (.inl ⟨rfl, keyField?_eq_none_iff.mp hkey⟩)
      | some f =>
        rw [delete_eq hkey]
        exact .written hissue (.delete hkey)
    | update =>
      cases hkey : keyField? fields primaryKey with
      | none =>
        rw [update, keyValue_eq_error hkey]
        exact .lacking hissue (.inl ⟨rfl, keyField?_eq_none_iff.mp hkey⟩)
      | some f =>
        by_cases hrest : nonKey fields primaryKey = []
        · rw [update, keyValue_eq_ok_iff.mpr ⟨f, hkey, rfl⟩]
          simp only [hrest]
          exact .lacking hissue (.inr ⟨rfl, nonKey_eq_nil_iff.mp hrest⟩)
        · rw [update_eq hkey hrest]
          exact .written hissue (.update hkey hrest)

/-- An operation that lacks something asks for nothing. -/
theorem AsksFor.not_lacks {x : Sentence} (h : AsksFor fields primaryKey customQuery op x) :
    ¬ Lacks fields primaryKey op := by
  have hkey : ∀ {f}, keyField? fields primaryKey = some f →
      ¬ ∀ f ∈ fields, some f.column ≠ primaryKey := by
    intro f hf hnone
    rw [keyField?_eq_none_iff.mpr hnone] at hf
    cases hf
  rintro (⟨hkeyed, hnone⟩ | ⟨rfl, hall⟩)
  · cases h with
    | insert | scan | own => cases hkeyed
    | upsert key | delete key | update key => exact hkey key hnone
  · cases h with
    | update _ rest => exact rest (nonKey_eq_nil_iff.mpr hall)

/-- What is synthesized is the sentence that the operation asks for. -/
theorem exists_sentence (h : synthesize t fields (some op) primaryKey customQuery = .ok s) :
    ∃ x, AsksFor fields primaryKey customQuery op x ∧ s = x.statement t := by
  have hcases := synthesized t fields primaryKey customQuery op
  rw [h] at hcases
  cases hcases with
  | written _ asks => exact ⟨_, asks, rfl⟩

end Statement
end Conveyor
