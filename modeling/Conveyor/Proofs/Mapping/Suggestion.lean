import Conveyor.Mapping.Suggestion
import Conveyor.Proofs.Pipeline.Valid

/-!
# Suggested mappings

The suggestions for a list of fields are a matching: no field and no column occurs twice, and no field is
left without a suggestion while a column of its name is free (`allTaken_of_unsuggested`). What is taken
already, the fields and the lower-case names of the columns that mappings use, grows with each suggestion,
so that the inductions are for any `sources` and `mapped`.
-/

namespace Conveyor.Mapping

/-- The name of a mapping's column, whatever its case. -/
def columnKey (m : FieldMapping) : String := Text.lower m.destinationColumn

/-- The mapping is what the columns suggest for its field: the first column of the field's name, with
that column's type, left out of a row only if it may be without a value. -/
structure Suggested (columns : List Column) (m : FieldMapping) (c : Column) : Prop where
  column : columns.find? (fun c => Text.lower c.name = Text.lower m.sourceField) = some c
  destination : m.destinationColumn = c.name
  dataType : m.dataType = c.dataType
  handling : m.nullHandling = if c.isNullable = some true then .skip else .required
  transform : m.transformType = none ∧ m.transformParam = none
  default : m.defaultValue = .null

/-- Every column of the field's name is taken. -/
def AllTaken (columns : List Column) (mapped : List String) (field : String) : Prop :=
  ∀ c ∈ columns, Text.lower c.name = Text.lower field → Text.lower c.name ∈ mapped

variable {columns : List Column} {sources mapped fields : List String} {field : String}

/-! ## One field -/

theorem matching?_eq_none_iff :
    matching? columns mapped field = none ↔ AllTaken columns mapped field := by
  simp [matching?, AllTaken]

/-- The columns of a field's name are free together or not at all, so that the first free one is the first
one of that name. -/
theorem matching?_eq_some_iff {c : Column} :
    matching? columns mapped field = some c ↔ Text.lower field ∉ mapped ∧
      columns.find? (fun c => Text.lower c.name = Text.lower field) = some c := by
  have hname : matching? columns mapped field = columns.find? fun c =>
      Text.lower c.name = Text.lower field && !mapped.contains (Text.lower field) := by
    refine congrArg (columns.find? ·) (funext fun c => ?_)
    by_cases hc : Text.lower c.name = Text.lower field
    · rw [hc]
    · simp [hc]
  rw [hname]
  by_cases htaken : Text.lower field ∈ mapped
  · have hnone : columns.find? (fun _ => false) = none := List.find?_eq_none.mpr nofun
    simp [htaken, hnone]
  · simp [htaken]

theorem suggested_suggestion {c : Column}
    (h : columns.find? (fun c => Text.lower c.name = Text.lower field) = some c) :
    Suggested columns (suggestion field c) c where
  column := h
  destination := rfl
  dataType := rfl
  handling := rfl
  transform := ⟨rfl, rfl⟩
  default := rfl

/-- A suggested column has the name of its field. -/
theorem Suggested.columnKey_eq {m : FieldMapping} {c : Column} (h : Suggested columns m c) :
    columnKey m = Text.lower m.sourceField := by
  have hname := List.find?_some h.column
  rw [decide_eq_true_eq] at hname
  rw [columnKey, h.destination, hname]

/-! ## All fields -/

/-- A field that is taken, or that has no column left, gets no suggestion and changes nothing. -/
theorem suggestFrom_cons_of_settled {rest : List String}
    (h : field ∈ sources ∨ AllTaken columns mapped field) :
    suggestFrom columns sources mapped (field :: rest) = suggestFrom columns sources mapped rest := by
  rw [suggestFrom]
  by_cases htaken : field ∈ sources
  · simp [htaken]
  · simp [htaken, matching?_eq_none_iff.mpr (h.resolve_left htaken)]

/-- Any other field gets the first column of its name, and both are taken from then on. -/
theorem suggestFrom_cons_of_free {rest : List String} {c : Column} (hfield : field ∉ sources)
    (hkey : Text.lower field ∉ mapped)
    (hc : columns.find? (fun c => Text.lower c.name = Text.lower field) = some c) :
    suggestFrom columns sources mapped (field :: rest) = suggestion field c
      :: suggestFrom columns (field :: sources) (Text.lower c.name :: mapped) rest := by
  rw [suggestFrom]
  simp [hfield, matching?_eq_some_iff.mpr ⟨hkey, hc⟩]

/-- A field is settled, or it gets a suggestion. -/
theorem settled_or_free (columns : List Column) (sources mapped : List String) (field : String) :
    (field ∈ sources ∨ AllTaken columns mapped field) ∨
      field ∉ sources ∧ Text.lower field ∉ mapped ∧
        ∃ c, columns.find? (fun c => Text.lower c.name = Text.lower field) = some c := by
  by_cases htaken : field ∈ sources
  · exact .inl (.inl htaken)
  · cases hmatch : matching? columns mapped field with
    | none => exact .inl (.inr (matching?_eq_none_iff.mp hmatch))
    | some c =>
      obtain ⟨hkey, hc⟩ := matching?_eq_some_iff.mp hmatch
      exact .inr ⟨htaken, hkey, c, hc⟩

/-- Suggestions are for fields that were asked for and not taken, and use columns that were free. -/
theorem mem_suggestFrom {m : FieldMapping} (h : m ∈ suggestFrom columns sources mapped fields) :
    m.sourceField ∈ fields ∧ m.sourceField ∉ sources ∧ columnKey m ∉ mapped ∧
      ∃ c, Suggested columns m c := by
  induction fields generalizing sources mapped with
  | nil => cases h
  | cons field rest ih =>
    rcases settled_or_free columns sources mapped field with settled | ⟨hfield, hkey, c, hc⟩
    · rw [suggestFrom_cons_of_settled settled] at h
      obtain ⟨hmem, others⟩ := ih h
      exact ⟨List.mem_cons_of_mem _ hmem, others⟩
    · rw [suggestFrom_cons_of_free hfield hkey hc, List.mem_cons] at h
      rcases h with rfl | h
      · have hsuggested := suggested_suggestion hc
        refine ⟨List.mem_cons_self, hfield, ?_, c, hsuggested⟩
        rw [hsuggested.columnKey_eq]
        exact hkey
      · obtain ⟨hmem, hsource, hcolumn, hsuggested⟩ := ih h
        exact ⟨List.mem_cons_of_mem _ hmem, fun hin => hsource (List.mem_cons_of_mem _ hin),
          fun hin => hcolumn (List.mem_cons_of_mem _ hin), hsuggested⟩

/-- No field gets two suggestions. -/
theorem nodup_sources_suggestFrom :
    ((suggestFrom columns sources mapped fields).map (·.sourceField)).Nodup := by
  induction fields generalizing sources mapped with
  | nil => exact .nil
  | cons field rest ih =>
    rcases settled_or_free columns sources mapped field with settled | ⟨hfield, hkey, c, hc⟩
    · rw [suggestFrom_cons_of_settled settled]
      exact ih
    · rw [suggestFrom_cons_of_free hfield hkey hc, List.map_cons, List.nodup_cons]
      refine ⟨fun hin => ?_, ih⟩
      obtain ⟨m, hm, heq⟩ := List.mem_map.mp hin
      apply (mem_suggestFrom hm).2.1
      rw [heq]
      exact List.mem_cons_self

/-- No column is suggested twice. -/
theorem nodup_columns_suggestFrom :
    ((suggestFrom columns sources mapped fields).map columnKey).Nodup := by
  induction fields generalizing sources mapped with
  | nil => exact .nil
  | cons field rest ih =>
    rcases settled_or_free columns sources mapped field with settled | ⟨hfield, hkey, c, hc⟩
    · rw [suggestFrom_cons_of_settled settled]
      exact ih
    · rw [suggestFrom_cons_of_free hfield hkey hc, List.map_cons, List.nodup_cons]
      refine ⟨fun hin => ?_, ih⟩
      obtain ⟨m, hm, heq⟩ := List.mem_map.mp hin
      apply (mem_suggestFrom hm).2.2.1
      rw [heq]
      exact List.mem_cons_self

/-- A field without a mapping had no column left: all columns of its name are taken, by what was there
before or by a suggestion. -/
theorem allTaken_of_unsuggested (hfield : field ∈ fields) (hsource : field ∉ sources)
    (h : ∀ m ∈ suggestFrom columns sources mapped fields, m.sourceField ≠ field) :
    AllTaken columns ((suggestFrom columns sources mapped fields).map columnKey ++ mapped) field := by
  induction fields generalizing sources mapped with
  | nil => cases hfield
  | cons first rest ih =>
    rcases settled_or_free columns sources mapped first with settled | ⟨hfirst, hkey, c, hc⟩
    · rw [suggestFrom_cons_of_settled settled] at h ⊢
      rcases List.mem_cons.mp hfield with rfl | hrest
      · intro c hc hname
        exact List.mem_append_right _ (settled.resolve_left hsource c hc hname)
      · exact ih hrest hsource h
    · rw [suggestFrom_cons_of_free hfirst hkey hc] at h ⊢
      obtain ⟨hne, hothers⟩ := List.forall_mem_cons.mp h
      have hother : field ≠ first := fun heq => hne heq.symm
      have hrest := (List.mem_cons.mp hfield).resolve_left hother
      have htaken := ih hrest (by simp [hother, hsource]) hothers
      intro d hd hname
      have hin := htaken d hd hname
      -- the first suggestion's column stands before the suggested ones here, behind them in `htaken`
      simp only [List.mem_append, List.mem_cons, List.map_cons] at hin ⊢
      rcases hin with hin | hin | hin
      · exact .inl (.inr hin)
      · exact .inl (.inl hin)
      · exact .inr hin

/-- If every field is taken or has no column left there is nothing to suggest. -/
theorem suggestFrom_eq_nil (h : ∀ f ∈ fields, f ∈ sources ∨ AllTaken columns mapped f) :
    suggestFrom columns sources mapped fields = [] := by
  induction fields with
  | nil => rfl
  | cons field rest ih =>
    obtain ⟨hfield, hrest⟩ := List.forall_mem_cons.mp h
    rw [suggestFrom_cons_of_settled hfield]
    exact ih hrest

/-! ## Existing mappings -/

/-- Mappings of new fields without transforms keep the mappings before them valid, if they name new columns:
columns that differ whatever their case do differ. -/
theorem validMappings_append {existing added : List FieldMapping}
    (h : Validation.ValidMappings existing)
    (sources : (added.map (·.sourceField)).Nodup)
    (newSources : ∀ m ∈ added, m.sourceField ∉ existing.map (·.sourceField))
    (columns : (added.map columnKey).Nodup)
    (newColumns : ∀ m ∈ added, columnKey m ∉ existing.map columnKey)
    (transforms : ∀ m ∈ added, m.transformType = none) :
    Validation.ValidMappings (existing ++ added) where
  columns := by
    rw [List.map_append]
    refine h.columns.append ?_ fun name hold hnew => ?_
    · apply List.Nodup.of_map Text.lower
      rw [List.map_map]
      exact columns
    · obtain ⟨m, hm, rfl⟩ := List.mem_map.mp hnew
      obtain ⟨e, he, heq⟩ := List.mem_map.mp hold
      exact newColumns m hm (List.mem_map.mpr ⟨e, he, congrArg Text.lower heq⟩)
  sources := by
    rw [List.map_append]
    refine h.sources.append sources fun name hold hnew => ?_
    obtain ⟨m, hm, rfl⟩ := List.mem_map.mp hnew
    exact newSources m hm hold
  transforms := by
    intro m hm name hname hgiven
    rcases List.mem_append.mp hm with hold | hnew
    · exact h.transforms m hold name hname hgiven
    · rw [transforms m hnew] at hname
      cases hname

/-- Suggestions come after the existing mappings, which stay as they are: each is for a field that was asked for
and has no mapping, and what the first column of its name suggests. No field and no column, whatever its case,
is suggested twice or again, and a field without a mapping has no free column. With its own result there is
nothing more to suggest, and valid mappings stay valid. A column that is given by its name alone has no type
and is not known to be nullable. -/
theorem suggest_completes (fields : List String) (columns : List Column) (existing : List FieldMapping) :
    ∃ added, suggest fields columns existing = existing ++ added ∧
      (∀ m ∈ added, m.sourceField ∈ fields ∧ ∃ c, Suggested columns m c) ∧
      ((added.map (·.sourceField)).Nodup ∧
        ∀ m ∈ added, m.sourceField ∉ existing.map (·.sourceField)) ∧
      ((added.map columnKey).Nodup ∧ ∀ m ∈ added, columnKey m ∉ existing.map columnKey) ∧
      (∀ f ∈ fields, f ∉ (existing ++ added).map (·.sourceField) →
        AllTaken columns ((existing ++ added).map columnKey) f) ∧
      suggest fields columns (existing ++ added) = existing ++ added ∧
      ∀ place, Validation.mappingsIssues place existing = [] →
        Validation.mappingsIssues place (existing ++ added) = [] := by
  generalize hadded :
    suggestFrom columns (existing.map (·.sourceField)) (existing.map columnKey) fields = added
  have hspec := fun m (hm : m ∈ added) => mem_suggestFrom (hadded ▸ hm)
  have hsources : (added.map (·.sourceField)).Nodup := hadded ▸ nodup_sources_suggestFrom
  have hcolumns : (added.map columnKey).Nodup := hadded ▸ nodup_columns_suggestFrom
  have hnewSources : ∀ m ∈ added, m.sourceField ∉ existing.map (·.sourceField) :=
    fun m hm => (hspec m hm).2.1
  have hnewColumns : ∀ m ∈ added, columnKey m ∉ existing.map columnKey :=
    fun m hm => (hspec m hm).2.2.1
  have htaken : ∀ f ∈ fields, f ∉ (existing ++ added).map (·.sourceField) →
      AllTaken columns ((existing ++ added).map columnKey) f := by
    intro f hf hunmapped c hc hname
    rw [List.map_append, List.mem_append, not_or] at hunmapped
    have hall : AllTaken columns (added.map columnKey ++ existing.map columnKey) f := by
      rw [← hadded]
      apply allTaken_of_unsuggested hf hunmapped.1
      intro m hm heq
      rw [hadded] at hm
      exact hunmapped.2 (List.mem_map.mpr ⟨m, hm, heq⟩)
    rw [List.map_append]
    exact List.mem_append.mpr (List.mem_append.mp (hall c hc hname)).symm
  refine ⟨added, ?result, ?each, ⟨hsources, hnewSources⟩, ⟨hcolumns, hnewColumns⟩, htaken, ?again,
    ?valid⟩
  case result =>
    rw [← hadded]
    rfl
  case each => exact fun m hm => ⟨(hspec m hm).1, (hspec m hm).2.2.2⟩
  case again =>
    have hnil : suggestFrom columns ((existing ++ added).map (·.sourceField))
        ((existing ++ added).map columnKey) fields = [] := by
      apply suggestFrom_eq_nil
      intro f hf
      by_cases hmapped : f ∈ (existing ++ added).map (·.sourceField)
      · exact .inl hmapped
      · exact .inr (htaken f hf hmapped)
    exact (congrArg (existing ++ added ++ ·) hnil).trans (List.append_nil _)
  case valid =>
    intro place hvalid
    rw [Validation.mappingsIssues_eq_nil_iff] at hvalid ⊢
    apply validMappings_append hvalid hsources hnewSources hcolumns hnewColumns
    intro m hm
    obtain ⟨c, hc⟩ := (hspec m hm).2.2.2
    exact hc.transform.1

/-- A mapping that is there already. -/
def renamed : FieldMapping := { sourceField := "Id", destinationColumn := "key" }

/-- Columns of which two have the same name, whatever its case. -/
def namesakes : List Column :=
  [{ name := "KEY" }, { name := "ID", dataType := some "int" },
    { name := "Level", isNullable := some true }, { name := "level" }]

/-- Two fields of one name get one column, the column of the existing mapping is not used again, and what
comes out is valid. -/
theorem renamed_completed :
    suggest ["Id", "id", "Key", "LEVEL", "level"] namesakes [renamed]
      = [renamed, { sourceField := "id", destinationColumn := "ID", dataType := some "int" },
        { sourceField := "LEVEL", destinationColumn := "Level", nullHandling := .skip }] ∧
      Validation.mappingsIssues [] [renamed] = [] ∧
      Validation.mappingsIssues []
        (suggest ["Id", "id", "Key", "LEVEL", "level"] namesakes [renamed]) = [] := by
  have hvalid : Validation.mappingsIssues [] [renamed] = [] := rfl
  obtain ⟨added, hresult, -, -, -, -, -, valid⟩ :=
    suggest_completes ["Id", "id", "Key", "LEVEL", "level"] namesakes [renamed]
  refine ⟨rfl, hvalid, ?_⟩
  rw [hresult]
  exact valid [] hvalid

end Conveyor.Mapping
