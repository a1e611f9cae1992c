import Conveyor.Proofs.Statement.Quoting

/-!
# What the text of a statement tells

The text of a statement holds no value, and tells which names it holds: two changes of a table have the same
text exactly if they are of one operation and say the same of the same columns and key. However a column or
a key is called, it cannot make one statement look like another.
-/

namespace Conveyor.Statement

open Mapping (ResolvedField)

def columns (fields : List ResolvedField) : List String := fields.map (·.column)

variable {d : Dialect} {t t' : Target} {row row' : List ResolvedField} {rest rest' : List Char}

/-! ## Lists -/

theorem text_name (d : Dialect) (column : String) : (Part.name column).text d = quoted d column :=
  toList_quoteIdentifier d column

theorem itemized_columnItem (d : Dialect) :
    Itemized d "," ResolvedField.column columnItem fun _ => [] where
  written f := by simp [columnItem, text_name]
  single _ := by simp
  comma := rfl

theorem itemized_setItem (d : Dialect) :
    Itemized d ", " ResolvedField.column setItem fun _ => " = ?".toList where
  written f := by simp [setItem, text_name]
  single _ := by cases d <;> decide
  comma := rfl

theorem itemized_valuesItem :
    Itemized .mysql ", " ResolvedField.column valuesItem
      fun column => " = VALUES(".toList ++ quoted .mysql column ++ ")".toList where
  written f := by simp [valuesItem, text_name]
  single column := by simp [mark]
  comma := rfl

/-- A list whose items are written without their values is decided by its columns. -/
theorem written_separated_congr (sep : String) {item : ResolvedField → List Part}
    (valueless : ∀ f : ResolvedField, written d (item ⟨f.column, .null⟩) = written d (item f))
    (h : columns row = columns row') :
    written d (separated sep (row.map item)) = written d (separated sep (row'.map item)) := by
  have hrow : ∀ row : List ResolvedField, written d (separated sep (row.map item)) =
      (Text.joinWith sep ((columns row).map fun c =>
        String.ofList (written d (item ⟨c, .null⟩)))).toList := by
    intro row
    rw [columns, List.map_map]
    refine written_separated sep (fun f => ?_) row
    rw [Function.comp_apply, String.toList_ofList, valueless]
  rw [hrow, hrow, h]

/-! ## Clauses -/

theorem rowParts_congr (h : columns row = columns row') :
    written d (rowParts row) = written d (rowParts row') := by
  have hnames : written d (separated "," (row.map columnItem)) =
      written d (separated "," (row'.map columnItem)) :=
    written_separated_congr "," (fun _ => rfl) h
  have hmarks : written d (separated "," (row.map valueItem)) =
      written d (separated "," (row'.map valueItem)) :=
    written_separated_congr "," (fun _ => rfl) h
  simp only [rowParts, written_append, hnames, hmarks]

theorem setParts_congr (h : columns row = columns row') :
    written d (setParts row) = written d (setParts row') :=
  written_separated_congr ", " (fun _ => rfl) h

theorem conflictParts_congr (h : columns row = columns row') (key : String) :
    written d (conflictParts row key d) = written d (conflictParts row' key d) := by
  have hempty : row.isEmpty = row'.isEmpty := by
    simpa [columns] using congrArg List.isEmpty h
  have hvalues : written d (separated ", " (row.map valuesItem)) =
      written d (separated ", " (row'.map valuesItem)) :=
    written_separated_congr ", " (fun _ => rfl) h
  have hexcluded : written d (separated ", " (row.map excludedItem)) =
      written d (separated ", " (row'.map excludedItem)) :=
    written_separated_congr ", " (fun _ => rfl) h
  cases d with
  | hana => rfl
  | mysql =>
    simp only [conflictParts, written_append, hempty]
    split
    · rfl
    · rw [hvalues]
  | ansi =>
    simp only [conflictParts, written_append, hempty]
    split
    · rfl
    · rw [written_append, written_append, hexcluded]

/-- Of two rows that are written alike, up to what follows them, the columns are the same. -/
theorem rowParts_inj (h : written d (rowParts row) ++ rest = written d (rowParts row') ++ rest') :
    columns row = columns row' ∧ rest = rest' := by
  have hsplit : ∀ (row : List ResolvedField) (rest : List Char),
      written d (rowParts row) ++ rest = " (".toList ++
        (written d (separated "," (row.map columnItem)) ++ (") VALUES (".toList ++
          (written d (separated "," (row.map valueItem)) ++ (")".toList ++ rest)))) := by
    intro row rest
    simp [rowParts]
  have hends : ∀ more : List Char, Ends d (") VALUES (".toList ++ more) := by
    intro more
    constructor <;> cases d <;> simp [mark]
  rw [hsplit, hsplit] at h
  obtain ⟨hcolumns, hvalues⟩ :=
    (itemized_columnItem d).listed_inj (hends _) (hends _) (List.append_cancel_left h)
  -- as many columns have as many question marks
  have hmarks : written d (separated "," (row.map valueItem)) =
      written d (separated "," (row'.map valueItem)) :=
    written_separated_congr "," (fun _ => rfl) hcolumns
  rw [hmarks] at hvalues
  exact ⟨hcolumns, List.append_cancel_left (List.append_cancel_left
    (List.append_cancel_left hvalues))⟩

/-- Conditions that are written alike are on the same key. -/
theorem whereParts_inj {key key' : ResolvedField}
    (h : written d (whereParts key) = written d (whereParts key')) : key.column = key'.column := by
  have hname : quoted d key.column ++ " = ?".toList = quoted d key'.column ++ " = ?".toList := by
    simpa [whereParts, text_name] using h
  have hsingle : " = ?".toList.head? ≠ some (mark d) := by cases d <;> decide
  exact (quoted_append_inj hsingle hsingle hname).1

theorem setParts_inj {key key' : ResolvedField}
    (h : written d (setParts row) ++ written d (whereParts key) =
      written d (setParts row') ++ written d (whereParts key')) :
    columns row = columns row' ∧ key.column = key'.column := by
  have hends : ∀ key : ResolvedField, Ends d (written d (whereParts key)) := by
    intro key
    constructor <;> cases d <;> simp [whereParts, mark]
  obtain ⟨hcolumns, hwhere⟩ := (itemized_setItem d).listed_inj (hends key) (hends key') h
  exact ⟨hcolumns, whereParts_inj hwhere⟩

/-! ## Tables -/

/-- A table of HANA with its schema. -/
def qualified (schema : Option String) (table : String) : List Char :=
  match schema with
  | some schema => quoted .hana schema ++ '.' :: quoted .hana table
  | none => quoted .hana table

theorem written_tableParts_hana (hana : t.dialect = .hana) :
    written .hana (tableParts t) = qualified t.schema? t.table := by
  unfold tableParts qualified
  rw [hana]
  cases t.schema? <;> simp [text_name]

/-- A dot goes on with a table, and a space does not. -/
theorem qualified_append_inj {schema schema' : Option String} {table table' : String}
    (space : rest.head? = some ' ') (space' : rest'.head? = some ' ')
    (h : qualified schema table ++ rest = qualified schema' table' ++ rest') :
    table = table' ∧ schema = schema' ∧ rest = rest' := by
  have hspace : ∀ {more : List Char}, more.head? = some ' ' → more.head? ≠ some (mark .hana) := by
    intro more hmore
    rw [hmore]
    decide
  have hdot : ∀ more : List Char, ('.' :: more).head? ≠ some (mark .hana) := by
    intro more
    simp [mark]
  cases schema with
  | none =>
    cases schema' with
    | none =>
      obtain ⟨htable, hrest⟩ := quoted_append_inj (hspace space) (hspace space') h
      exact ⟨htable, rfl, hrest⟩
    | some schema' =>
      simp only [qualified, List.append_assoc, List.cons_append] at h
      simp [(quoted_append_inj (hspace space) (hdot _) h).2] at space
  | some schema =>
    simp only [qualified, List.append_assoc, List.cons_append] at h
    cases schema' with
    | none => simp [← (quoted_append_inj (hdot _) (hspace space') h).2] at space'
    | some schema' =>
      simp only [List.append_assoc, List.cons_append] at h
      obtain ⟨rfl, htables⟩ := quoted_append_inj (hdot _) (hdot _) h
      obtain ⟨htable, hrest⟩ :=
        quoted_append_inj (hspace space) (hspace space') (List.cons.inj htables).2
      exact ⟨htable, rfl, hrest⟩

/-- Of two targets only those of HANA are told apart by their texts. -/
def Comparable (t t' : Target) : Prop := t = t' ∨ t.dialect = .hana ∧ t'.dialect = .hana

theorem Comparable.dialect (h : Comparable t t') : t'.dialect = t.dialect := by
  rcases h with rfl | ⟨h, h'⟩
  · rfl
  · rw [h, h']

/-- Tables that are written alike before a space are the same. -/
theorem tableParts_inj (comparable : Comparable t t') (space : rest.head? = some ' ')
    (space' : rest'.head? = some ' ')
    (h : written t.dialect (tableParts t) ++ rest = written t.dialect (tableParts t') ++ rest') :
    t.table = t'.table ∧ t.schema? = t'.schema? ∧ rest = rest' := by
  rcases comparable with rfl | ⟨hana, hana'⟩
  · exact ⟨rfl, rfl, List.append_cancel_left h⟩
  · rw [hana, written_tableParts_hana hana, written_tableParts_hana hana'] at h
    exact qualified_append_inj space space' h

theorem tableParts_congr (comparable : Comparable t t') (table : t.table = t'.table)
    (schema : t.schema? = t'.schema?) : tableParts t = tableParts t' := by
  rcases comparable with rfl | ⟨hana, hana'⟩
  · rfl
  · unfold tableParts
    rw [hana, hana', schema, table]
    cases t'.schema? <;> rfl

/-! ## Keys of upserts -/

variable {fields fields' : List ResolvedField} {primaryKey primaryKey' customQuery customQuery' : Option String}
  {op op' : Operation} {key key' : ResolvedField} {x y : Sentence} {s s' : Statement}

theorem columns_nonKey (fields : List ResolvedField) (primaryKey : Option String) :
    columns (nonKey fields primaryKey) = (columns fields).filter fun c => some c ≠ primaryKey := by
  rw [columns, nonKey, columns, List.filter_map]
  rfl

/-- A column that is not the key of either record is told by the columns that are set. -/
theorem column_of_nonKey (hcolumns : columns fields = columns fields')
    (hkey : keyField? fields primaryKey = some key) (hkey' : keyField? fields' primaryKey' = some key')
    (h : columns (nonKey fields primaryKey) = columns (nonKey fields' primaryKey')) :
    key.column = key'.column := by
  by_contra hne
  obtain rfl := column_of_keyField? hkey
  obtain rfl := column_of_keyField? hkey'
  have hmem : key.column ∈ columns fields' := by
    rw [← hcolumns]
    exact List.mem_map_of_mem (List.mem_of_find?_eq_some hkey)
  obtain ⟨f, hf, hcolumn⟩ := List.mem_map.mp hmem
  have hset : key.column ∈ columns (nonKey fields (some key.column)) := by
    rw [h]
    exact List.mem_map.mpr ⟨f, mem_nonKey.mpr ⟨hf, by simpa [hcolumn] using hne⟩, hcolumn⟩
  obtain ⟨g, hg, hcolumn'⟩ := List.mem_map.mp hset
  exact (mem_nonKey.mp hg).2 (congrArg some hcolumn')

/-- If nothing but the key is there, every key of the record is this one. -/
theorem column_of_nonKey_eq_nil (hcolumns : columns fields = columns fields')
    (hkey : keyField? fields primaryKey = some key) (hkey' : keyField? fields' primaryKey' = some key')
    (h : nonKey fields primaryKey = []) : key.column = key'.column := by
  have hmem : key'.column ∈ columns fields := by
    rw [hcolumns]
    exact List.mem_map_of_mem (List.mem_of_find?_eq_some hkey')
  obtain ⟨f, hf, hcolumn⟩ := List.mem_map.mp hmem
  have hsome := (nonKey_eq_nil_iff.mp h f hf).trans (column_of_keyField? hkey).symm
  rw [hcolumn] at hsome
  exact (Option.some.inj hsome).symm

/-- Records of the same columns that are set alike have the same key. -/
theorem conflictParts_inj (hd : d ≠ .hana) (hcolumns : columns fields = columns fields')
    (hkey : keyField? fields primaryKey = some key) (hkey' : keyField? fields' primaryKey' = some key')
    (h : written d (conflictParts (nonKey fields primaryKey) key.column d) =
      written d (conflictParts (nonKey fields' primaryKey') key'.column d)) :
    key.column = key'.column := by
  cases d with
  | hana => exact absurd rfl hd
  | ansi =>
    simp only [conflictParts, written_append, written_cons, written_nil, text_name, Part.text_words,
      List.append_assoc] at h
    refine (quoted_append_inj ?_ ?_ (List.append_cancel_left h)).1 <;> simp [mark]
  | mysql =>
    by_cases hnone : nonKey fields primaryKey = []
    · exact column_of_nonKey_eq_nil hcolumns hkey hkey' hnone
    · by_cases hnone' : nonKey fields' primaryKey' = []
      · exact (column_of_nonKey_eq_nil hcolumns.symm hkey' hkey hnone').symm
      · have hends : Ends .mysql [] := ⟨by simp, by simp⟩
        simp only [conflictParts, List.isEmpty_iff, hnone, hnone', if_false, written_append] at h
        have hlists := congrArg (· ++ []) (List.append_cancel_left h)
        exact column_of_nonKey hcolumns hkey hkey' (itemized_valuesItem.listed_inj hends hends hlists).1

/-! ## Texts -/

/-- The words that a sentence starts with, up to its table. -/
def Sentence.verb (d : Dialect) : Sentence → String
  | .insert _ => "INSERT INTO "
  | .upsert .. => if d = .hana then "UPSERT " else "INSERT INTO "
  | .update .. => "UPDATE "
  | .delete _ => "DELETE FROM "
  | .scan => "SELECT * FROM "
  | .own query => query

/-- What a change of a table says behind the table. -/
def Sentence.body (d : Dialect) : Sentence → List Part
  | .insert row => rowParts row
  | .upsert row updated key => rowParts row ++ conflictParts updated key d
  | .update set key => [.words " SET "] ++ setParts set ++ whereParts key
  | .delete key => whereParts key
  | .scan | .own _ => []

/-- A change of a table: its verb, the table, and behind a space what it says. -/
theorem AsksFor.text (asks : AsksFor fields primaryKey customQuery op x) (change : op ≠ .select)
    (t : Target) :
    (x.statement t).text.toList = (x.verb t.dialect).toList ++
      (written t.dialect (tableParts t) ++ written t.dialect (x.body t.dialect)) ∧
    (written t.dialect (x.body t.dialect)).head? = some ' ' := by
  cases asks with
  | scan | own => exact absurd rfl change
  | insert | upsert | update | delete =>
    constructor
    · simp [Sentence.statement, Sentence.parts, Sentence.verb, Sentence.body]
    · simp [Sentence.body, rowParts, whereParts]

/-- What a change of a table can start with. -/
def IsVerb (v : String) : Prop :=
  v = "INSERT INTO " ∨ v = "UPSERT " ∨ v = "UPDATE " ∨ v = "DELETE FROM "

theorem AsksFor.isVerb (asks : AsksFor fields primaryKey customQuery op x) (change : op ≠ .select)
    (d : Dialect) : IsVerb (x.verb d) := by
  cases asks with
  | scan | own => exact absurd rfl change
  | upsert => cases d <;> simp [IsVerb, Sentence.verb]
  | insert | update | delete => simp [IsVerb, Sentence.verb]

/-- No verb is the beginning of another one. -/
theorem IsVerb.append_inj {v v' : String} (hv : IsVerb v) (hv' : IsVerb v')
    (h : v.toList ++ rest = v'.toList ++ rest') : v = v' ∧ rest = rest' := by
  rcases hv with rfl | rfl | rfl | rfl <;> rcases hv' with rfl | rfl | rfl | rfl <;> simp at h
  case inl.inl | inr.inl.inr.inl | inr.inr.inl.inr.inr.inl | inr.inr.inr.inr.inr.inr =>
    exact ⟨rfl, h⟩

/-- The names that the text of a change holds: the columns that it lists or sets, and the key. -/
def named (d : Dialect) (fields : List ResolvedField) (primaryKey : Option String) :
    Operation → List String × Option String
  | .insert => (columns fields, none)
  | .upsert => (columns fields, if d = .hana then none else primaryKey)
  | .update => (columns (nonKey fields primaryKey), primaryKey)
  | .delete => ([], primaryKey)
  | .select => ([], none)

theorem primaryKey_eq (hkey : keyField? fields primaryKey = some key)
    (hkey' : keyField? fields' primaryKey' = some key') (hcolumn : key.column = key'.column) :
    primaryKey = primaryKey' := by
  rw [← column_of_keyField? hkey, ← column_of_keyField? hkey', hcolumn]

/-- Changes with the same verb that go on alike behind the table are of one operation and hold the same
names. -/
theorem body_inj (asks : AsksFor fields primaryKey customQuery op x)
    (asks' : AsksFor fields' primaryKey' customQuery' op' y) (change : op ≠ .select)
    (change' : op' ≠ .select) (verb : x.verb d = y.verb d)
    (h : written d (x.body d) = written d (y.body d)) :
    op = op' ∧ named d fields primaryKey op = named d fields' primaryKey' op' := by
  -- an insert ends where an upsert goes on
  have hconflict : ∀ (updated : List ResolvedField) (key : String),
      written d (conflictParts updated key d) ≠ [] := by
    intro updated key
    cases d <;> simp [conflictParts]
  cases asks with
  | scan | own => exact absurd rfl change
  | insert =>
    cases asks' with
    | scan | own => exact absurd rfl change'
    | update | delete => simp [Sentence.verb] at verb
    | insert =>
      have hrows := congrArg (· ++ []) h
      exact ⟨rfl, Prod.ext (rowParts_inj hrows).1 rfl⟩
    | @upsert key' hkey' =>
      rw [Sentence.body, Sentence.body, written_append, ← List.append_nil (written d _)] at h
      exact absurd (rowParts_inj h).2.symm (hconflict _ _)
  | @upsert key hkey =>
    cases asks' with
    | scan | own => exact absurd rfl change'
    | update | delete => cases d <;> simp [Sentence.verb] at verb
    | insert =>
      rw [Sentence.body, Sentence.body, written_append, ← List.append_nil (written d (rowParts fields'))]
        at h
      exact absurd (rowParts_inj h).2 (hconflict _ _)
    | @upsert key' hkey' =>
      rw [Sentence.body, Sentence.body, written_append, written_append] at h
      obtain ⟨hcolumns, hconflicts⟩ := rowParts_inj h
      refine ⟨rfl, Prod.ext hcolumns ?_⟩
      by_cases hd : d = .hana
      · simp [named, hd]
      · have hcolumn := conflictParts_inj hd hcolumns hkey hkey' hconflicts
        simp [named, hd, primaryKey_eq hkey hkey' hcolumn]
  | @update key hkey =>
    cases asks' with
    | scan | own => exact absurd rfl change'
    | insert | delete => simp [Sentence.verb] at verb
    | upsert => cases d <;> simp [Sentence.verb] at verb
    | @update key' hkey' =>
      simp only [Sentence.body, written_append, List.append_assoc] at h
      obtain ⟨hcolumns, hcolumn⟩ := setParts_inj (List.append_cancel_left h)
      exact ⟨rfl, Prod.ext hcolumns (primaryKey_eq hkey hkey' hcolumn)⟩
  | @delete key hkey =>
    cases asks' with
    | scan | own => exact absurd rfl change'
    | insert | update => simp [Sentence.verb] at verb
    | upsert => cases d <;> simp [Sentence.verb] at verb
    | @delete key' hkey' =>
      exact ⟨rfl, Prod.ext rfl (primaryKey_eq hkey hkey' (whereParts_inj h))⟩

/-- What a change says depends on its operation and the names that it holds. -/
theorem body_congr (asks : AsksFor fields primaryKey customQuery op x)
    (asks' : AsksFor fields' primaryKey' customQuery' op y) (change : op ≠ .select)
    (h : named d fields primaryKey op = named d fields' primaryKey' op) :
    x.verb d = y.verb d ∧ written d (x.body d) = written d (y.body d) := by
  have hkeys : ∀ {key key' : ResolvedField}, keyField? fields primaryKey = some key →
      keyField? fields' primaryKey' = some key' → primaryKey = primaryKey' →
      key.column = key'.column := by
    intro key key' hkey hkey' hprimary
    have hcolumn := (column_of_keyField? hkey).trans (hprimary.trans (column_of_keyField? hkey').symm)
    exact Option.some.inj hcolumn
  obtain ⟨hcolumns, hprimary⟩ := Prod.ext_iff.mp h
  cases asks with
  | scan | own => exact absurd rfl change
  | insert =>
    cases asks' with
    | insert => exact ⟨rfl, rowParts_congr hcolumns⟩
  | @upsert key hkey =>
    cases asks' with
    | @upsert key' hkey' =>
      refine ⟨rfl, ?_⟩
      have hrows : written d (rowParts fields) = written d (rowParts fields') := rowParts_congr hcolumns
      rw [Sentence.body, Sentence.body, written_append, written_append, hrows]
      refine congrArg _ ?_
      by_cases hd : d = .hana
      · subst hd
        rfl
      · have hprimary' : primaryKey = primaryKey' := by simpa [named, hd] using hprimary
        rw [hkeys hkey hkey' hprimary']
        refine conflictParts_congr ?_ _
        rw [columns_nonKey, columns_nonKey, show columns fields = columns fields' from hcolumns, hprimary']
  | @update key hkey =>
    cases asks' with
    | @update key' hkey' =>
      refine ⟨rfl, ?_⟩
      have hsets : written d (setParts (nonKey fields primaryKey)) =
          written d (setParts (nonKey fields' primaryKey')) := setParts_congr hcolumns
      simp [Sentence.body, hsets, whereParts, text_name, hkeys hkey hkey' hprimary]
  | @delete key hkey =>
    cases asks' with
    | @delete key' hkey' =>
      exact ⟨rfl, by simp [Sentence.body, whereParts, text_name, hkeys hkey hkey' hprimary]⟩

/-- The columns and the key of a record decide which names the text holds. -/
theorem named_congr (hcolumns : columns fields = columns fields') (d : Dialect)
    (primaryKey : Option String) (op : Operation) :
    named d fields primaryKey op = named d fields' primaryKey op := by
  cases op with
  | insert | upsert => exact Prod.ext hcolumns rfl
  | update =>
    refine Prod.ext ?_ rfl
    rw [named, named, columns_nonKey, columns_nonKey, hcolumns]
  | delete | select => rfl

/-- Two changes, of the same table or of tables of HANA, have the same text exactly if they are of one
operation, about one table, and hold the same names in the same order. The values have no part in it. -/
theorem text_eq_iff_named (comparable : Comparable t t') (change : op ≠ .select)
    (change' : op' ≠ .select)
    (synthesized : synthesize t fields (some op) primaryKey customQuery = .ok s)
    (synthesized' : synthesize t' fields' (some op') primaryKey' customQuery' = .ok s') :
    (t = t' → op = op' → fields.map (·.column) = fields'.map (·.column) → primaryKey = primaryKey' →
      s.text = s'.text) ∧
    (s.text = s'.text ↔ op = op' ∧ t.table = t'.table ∧ t.schema? = t'.schema? ∧
      named t.dialect fields primaryKey op = named t.dialect fields' primaryKey' op') := by
  obtain ⟨x, asks, rfl⟩ := exists_sentence synthesized
  obtain ⟨y, asks', rfl⟩ := exists_sentence synthesized'
  obtain ⟨htext, hspace⟩ := asks.text change t
  obtain ⟨htext', hspace'⟩ := asks'.text change' t'
  rw [comparable.dialect] at htext' hspace'
  have hiff : (x.statement t).text = (y.statement t').text ↔ op = op' ∧ t.table = t'.table ∧
      t.schema? = t'.schema? ∧
      named t.dialect fields primaryKey op = named t.dialect fields' primaryKey' op' := by
    rw [← String.toList_inj, htext, htext']
    constructor
    · intro h
      obtain ⟨hverb, htables⟩ :=
        (asks.isVerb change t.dialect).append_inj (asks'.isVerb change' t.dialect) h
      obtain ⟨htable, hschema, hbody⟩ := tableParts_inj comparable hspace hspace' htables
      obtain ⟨hop, hnamed⟩ := body_inj asks asks' change change' hverb hbody
      exact ⟨hop, htable, hschema, hnamed⟩
    · rintro ⟨rfl, htable, hschema, hnamed⟩
      obtain ⟨hverb, hbody⟩ := body_congr asks asks' change hnamed
      rw [hverb, hbody, tableParts_congr comparable htable hschema]
  refine ⟨?_, hiff⟩
  rintro rfl rfl hcolumns rfl
  exact hiff.mpr ⟨rfl, rfl, rfl, named_congr hcolumns t.dialect primaryKey op⟩

/-- A schema that ends like a table, and a table that starts like a schema. -/
def outerQuotes : Target := ⟨.hana, "T", some "A\".\"B"⟩

def innerQuotes : Target := ⟨.hana, "B\".\"T", some "A"⟩

theorem quotes_told_apart :
    ∃ s s', synthesize outerQuotes [⟨"id\",\"level", .null⟩] (some .insert) none none = .ok s ∧
      synthesize innerQuotes [⟨"id", .null⟩, ⟨"level", .null⟩] (some .insert) none none = .ok s' ∧
      Comparable outerQuotes innerQuotes ∧ s.text ≠ s'.text := by
  have comparable : Comparable outerQuotes innerQuotes := .inr ⟨rfl, rfl⟩
  have outer : ∃ s, synthesize outerQuotes [⟨"id\",\"level", .null⟩] (some .insert) none none = .ok s :=
    ⟨_, rfl⟩
  have inner : ∃ s, synthesize innerQuotes [⟨"id", .null⟩, ⟨"level", .null⟩] (some .insert) none none =
      .ok s := ⟨_, rfl⟩
  obtain ⟨s, hs⟩ := outer
  obtain ⟨s', hs'⟩ := inner
  refine ⟨s, s', hs, hs', comparable, fun heq => ?_⟩
  have change : Operation.insert ≠ .select := nofun
  obtain ⟨-, htable, -⟩ := (text_eq_iff_named comparable change change hs hs').2.mp heq
  exact absurd htable (by decide)

end Conveyor.Statement
