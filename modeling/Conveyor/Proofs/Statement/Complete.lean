import Conveyor.Proofs.Mapping.Resolution
import Conveyor.Proofs.Run.Exchange
import Conveyor.Proofs.Run.Refusal
import Conveyor.Proofs.Statement.Sentence

/-!
# Complete statements

A statement is complete if it lists a column where it puts a row into a table, and names a table unless
it is a query of the author's own. Validation asks for mappings and for a table, so that most statements
are complete whatever the record is (`complete_iff`). It does not see that all mappings of an insert may
skip their columns in a record, and it takes a query of blanks for one of the author's own.
-/

namespace Conveyor

open Activity Run Validation

/-! ## Records that give no column -/

namespace Mapping

variable {record : Fields} {m : FieldMapping} {ms : List FieldMapping} {seen : List String}
  {fields : List ResolvedField}

/-- A record is resolved to no columns exactly if every mapping skips its column. -/
theorem resolveFrom_eq_nil_iff (h : resolveFrom record seen ms = .ok fields) :
    fields = [] ↔ ∀ m ∈ ms, Skips record m := by
  induction ms generalizing seen fields with
  | nil =>
    cases h
    simp
  | cons m rest ih =>
    unfold resolveFrom at h
    split at h
    · cases h
    · obtain ⟨value, hvalue, h⟩ := Outcome.bind_eq_ok_iff.mp h
      obtain ⟨more, hmore, h⟩ := Outcome.bind_eq_ok_iff.mp h
      rw [List.forall_mem_cons, ← resolveField_eq_none_iff, hvalue, ← ih hmore]
      cases value with
      | none =>
        cases h
        simp
      | some v =>
        cases h
        simp

end Mapping

/-! ## What a query step asks for -/

namespace Step

/-- The query of a step, as validation knows it. -/
def query (s : Step) : QueryShape := if s.kind = .sapQuery then sapQuery s else databaseQuery s

/-- The table of a query step. -/
def target (s : Step) : Target :=
  if s.kind = .sapQuery then ⟨.hana, s.sap.table.getD "", s.sap.schema⟩
  else ⟨s.database.dialect.getD .ansi, s.database.table.getD "", none⟩

theorem statement_eq (s : Step) (fields : List Mapping.ResolvedField) :
    s.statement fields = Statement.synthesize s.target fields (some s.query.operation)
      s.query.primaryKey s.query.customQuery := by
  unfold statement target query
  split <;> rfl

theorem target_table (s : Step) : s.target.table = s.query.table.getD "" := by
  unfold target query
  split <;> rfl

/-- Validation knows the dialect that the statement is in. -/
theorem target_dialect (s : Step) : s.target.dialect = s.query.dialect := by
  unfold target query
  split <;> rfl

/-- Only tables of HANA have a schema. -/
theorem target_schema {s : Step} (h : s.target.dialect ≠ .hana) : s.target.schema = none := by
  unfold target at h ⊢
  split at h
  · exact absurd rfl h
  · rename_i hkind
    rw [if_neg hkind]

/-- The step inserts, and the record has nothing for any of its columns. -/
def InsertsNothing (s : Step) (record : Fields) : Prop :=
  s.query.operation = .insert ∧ ∀ m ∈ s.fieldMappings, Mapping.Skips record m

/-- The step selects from no table, and no query of the author's own says from where. -/
def SelectsNothing (s : Step) : Prop :=
  s.query.operation = .select ∧ Statement.given s.query.table = false ∧
    ∀ q, s.query.customQuery = some q → Text.isBlankText q = true

end Step

namespace Statement

/-- A sentence that lists a column where it has a row, and names a table where it has one. -/
def Sentence.Complete (t : Target) : Sentence → Prop
  | .insert row | .upsert row _ _ => row ≠ [] ∧ t.table ≠ ""
  | .update .. | .delete _ | .scan => t.table ≠ ""
  | .own _ => True

theorem given_eq_false_iff {table : Option String} : given table = false ↔ table.getD "" = "" := by
  cases table <;> simp [given]

variable {s : Step} {fields : List Mapping.ResolvedField} {x : Sentence}

/-- A query that validation accepts has a table, unless it selects. -/
theorem table_ne_empty (valid : ValidQuery s.query) (change : s.query.operation ≠ .select) :
    s.target.table ≠ "" := by
  rw [Step.target_table]
  intro hempty
  rcases valid.table with hgiven | ⟨hselect, -⟩
  · rw [given_eq_false_iff.mpr hempty] at hgiven
    cases hgiven
  · exact change hselect

/-- A sentence that a valid query asks for is complete unless it inserts nothing, or selects from no
table though there is no query of the author's own. -/
theorem complete_iff (valid : ValidQuery s.query)
    (asks : AsksFor fields s.query.primaryKey s.query.customQuery s.query.operation x) :
    x.Complete s.target ↔ ¬ (s.query.operation = .insert ∧ fields = []) ∧ ¬ s.SelectsNothing := by
  have htable := table_ne_empty valid
  have hselects : s.SelectsNothing → s.query.operation = .select := fun h => h.1
  generalize hop : s.query.operation = op at *
  cases asks with
  | insert => simp [Sentence.Complete, htable, mt hselects]
  | upsert key =>
    have hfields : fields ≠ [] := List.ne_nil_of_mem (List.mem_of_find?_eq_some key)
    simp [Sentence.Complete, htable, hfields, mt hselects]
  | update | delete => simp [Sentence.Complete, htable, mt hselects]
  | scan unasked =>
    have hnothing : s.SelectsNothing ↔ s.target.table = "" := by
      rw [Step.target_table, ← given_eq_false_iff]
      exact ⟨fun h => h.2.1, fun h => ⟨hop, h, unasked⟩⟩
    simp [Sentence.Complete, hnothing]
  | own asked text =>
    simp [Sentence.Complete, Step.SelectsNothing, asked, text]

/-- What an insert says that lists nothing. -/
theorem text_insert_nil (t : Target) :
    ((Sentence.insert []).statement t).text = "INSERT INTO " ++ tableText t ++ " () VALUES ()" := by
  rw [← String.toList_inj]
  simp [Sentence.statement, Sentence.parts, written_tableParts, written_rowParts, columnNames,
    placeholders, Text.joinWith]

/-- What a selection says that names no table. -/
theorem text_scan_of_selectsNothing (valid : ValidQuery s.query) (h : s.SelectsNothing) :
    (Sentence.scan.statement s.target).text = "SELECT * FROM " := by
  have hdialect : s.target.dialect ≠ .hana := by
    rw [Step.target_dialect]
    intro hhana
    have hwritten := valid.operation
    rw [h.1, hhana] at hwritten
    cases hwritten
  have htable : s.target.table = "" := s.target_table.trans (given_eq_false_iff.mp h.2.1)
  have hempty : tableText s.target = "" := by
    simp [tableText, Step.target_schema hdialect, hdialect, htable]
  rw [← String.toList_inj]
  simp [Sentence.statement, Sentence.parts, written_tableParts, hempty]

/-! ## What a step sends -/

/-- Validation has accepted the step, by itself or as that of the destination of a pipeline. -/
def Accepted (s : Step) : Prop :=
  (∃ place count, stepIssues place count s = .ok []) ∨
    ∃ (place : Place) (p : Pipeline), pipelineIssues place p = .ok [] ∧
      p.destinationStep? (p.sortedSteps.length + 1) = some s

/-- The query of a step that was accepted is valid. -/
theorem Accepted.valid (h : Accepted s) (query : s.kind = .dbQuery ∨ s.kind = .sapQuery) :
    ValidQuery s.query := by
  have hsettings : ∃ count, ValidSettings count s := by
    rcases h with ⟨place, count, hissues⟩ | ⟨place, p, hissues, hstep⟩
    · exact ⟨count, (stepIssues_eq_nil_iff_validStep.mp hissues).settings⟩
    · exact ⟨_, ((pipelineIssues_eq_nil_iff_isValid.mp hissues).settings_of_final hstep).2⟩
  obtain ⟨count, settings⟩ := hsettings
  unfold ValidSettings at settings
  rcases query with hkind | hkind
  · rw [hkind] at settings
    rw [Step.query, if_neg (by simp [hkind])]
    exact settings.2
  · rw [hkind] at settings
    rw [Step.query, if_pos hkind]
    exact settings.2

/-- What a step that was accepted sends as a statement is the sentence that its operation asks for of a
record. It is complete unless the step inserts and the record has nothing for any of its columns, or
selects from no table by a query of blanks. Then it says just this. -/
theorem sent_complete_iff {c : ExecutorConfig} {scope : Scope} {p : Progress} {events : List Event}
    {a : Attempted} {ref : DestinationRef} {st : Statement} {answer : Option Answer}
    (accepted : Accepted s) (course : Course (attempt c s scope p) events a)
    (sent : (ref, .statement st, answer) ∈ calls events) :
    ∃ (input : Value) (record : Fields) (fields : List Mapping.ResolvedField) (x : Sentence),
      scope.renderInput s.inputMapping = .ok input ∧ s.inputFields input = .ok record ∧
      Mapping.resolve record s.fieldMappings = .ok fields ∧
      AsksFor fields s.query.primaryKey s.query.customQuery s.query.operation x ∧
      st = x.statement s.target ∧
      (x.Complete s.target ↔ ¬ s.InsertsNothing record ∧ ¬ s.SelectsNothing) ∧
      (s.InsertsNothing record →
        st.text = "INSERT INTO " ++ tableText s.target ++ " () VALUES ()") ∧
      (s.SelectsNothing → st.text = "SELECT * FROM ") := by
  obtain ⟨xs, made, -⟩ := exchanges_attempts course
  rw [made.calls] at sent
  obtain ⟨⟨ref', request, shown, answer'⟩, hmem, heq⟩ := List.mem_map.mp sent
  cases heq
  have sending : Sending s scope _ (.statement st) shown := made.sendings _ hmem
  cases sending with
  | @statement input record fields _ kind _ rendered entered resolved written =>
    have valid := accepted.valid kind
    rw [Step.statement_eq] at written
    obtain ⟨x, asks, rfl⟩ := exists_sentence written
    have hnone : fields = [] ↔ ∀ m ∈ s.fieldMappings, Mapping.Skips record m :=
      Mapping.resolveFrom_eq_nil_iff resolved
    refine ⟨input, record, fields, x, rendered, entered, resolved, asks, rfl, ?_, ?_, ?_⟩
    · rw [complete_iff valid asks, hnone]
      rfl
    · rintro ⟨hinsert, hskips⟩
      rw [hinsert, hnone.mpr hskips] at asks
      cases asks with
      | insert => exact text_insert_nil s.target
    · intro hnothing
      have htext := text_scan_of_selectsNothing valid hnothing
      rw [hnothing.1] at asks
      cases asks with
      | scan => exact htext
      | own asked text =>
        rw [hnothing.2.2 _ asked] at text
        cases text

/-- An insert of one column, which may be skipped. -/
def sparse : Step where
  order := 1
  name := "insert"
  kind := .dbQuery
  fieldMappings := [{ sourceField := "level", destinationColumn := "level", nullHandling := .skip }]
  database := { configId := some 3, table := some "readings" }

/-- A selection by a query of blanks. -/
def blank : Step where
  order := 1
  name := "select"
  kind := .dbQuery
  database := { configId := some 3, queryType := some .select, extendedQuery := some "  " }

/-- What is asked for when a step is taken with an empty record. -/
def takenEmpty (s : Step) : List Event :=
  Activity.events (answering (.result { success := true }))
    (attempt {} s (Scope.start []) { entry := none }) ()

/-- The texts of the statements that are sent. -/
def sentTexts (events : List Event) : List String :=
  (calls events).filterMap fun call =>
    match call.2.1 with
    | .statement st => some st.text
    | .rest _ => none

theorem sentTexts_sparse : sentTexts (takenEmpty sparse) = ["INSERT INTO readings () VALUES ()"] := by
  decide +kernel

theorem sentTexts_blank : sentTexts (takenEmpty blank) = ["SELECT * FROM "] := by
  decide +kernel

theorem accepted_sparse : Accepted sparse := by
  refine .inl ⟨[], 1, stepIssues_eq_nil_iff_validStep.mpr ⟨by decide, by decide +kernel, ?_, rfl, ?_⟩⟩
  · exact ⟨by decide, by decide, List.forall_mem_singleton.mpr nofun⟩
  · exact ⟨rfl, .inl rfl, nofun, .inr (by decide), nofun⟩

theorem accepted_blank : Accepted blank := by
  refine .inl ⟨[], 1, stepIssues_eq_nil_iff_validStep.mpr ⟨by decide, by decide +kernel, ?_, rfl, ?_⟩⟩
  · exact ⟨.nil, .nil, nofun⟩
  · exact ⟨rfl, .inr ⟨rfl, rfl⟩, nofun, .inl rfl, nofun⟩

theorem exists_sent_of_sentTexts {events : List Event} {text : String} (h : text ∈ sentTexts events) :
    ∃ ref st answer, (ref, Request.statement st, answer) ∈ calls events ∧ st.text = text := by
  obtain ⟨⟨ref, request, answer⟩, hmem, htext⟩ := List.mem_filterMap.mp h
  cases request with
  | rest => cases htext
  | statement st => exact ⟨ref, st, answer, hmem, Option.some.inj htext⟩

theorem sparse_incomplete :
    Accepted sparse ∧ ∃ ref st answer x, (ref, .statement st, answer) ∈ calls (takenEmpty sparse) ∧
      st = x.statement sparse.target ∧ ¬ Sentence.Complete sparse.target x := by
  obtain ⟨ref, st, answer, sent, -⟩ := exists_sent_of_sentTexts
    (sentTexts_sparse ▸ List.mem_singleton_self _)
  have course : Course (attempt {} sparse (Scope.start []) { entry := none }) (takenEmpty sparse) _ :=
    course_events _ _ ()
  obtain ⟨input, record, fields, x, rendered, entered, -, -, hst, hcomplete, -, -⟩ :=
    sent_complete_iff accepted_sparse course sent
  refine ⟨accepted_sparse, ref, st, answer, x, sent, hst, fun h => (hcomplete.mp h).1 ⟨rfl, ?_⟩⟩
  -- the record is empty
  cases rendered
  cases entered
  exact List.forall_mem_singleton.mpr ⟨rfl, .inl rfl⟩

/-- Validation accepts both steps, and what they send is the text of sentences that are not complete. -/
theorem accepted_sent_incomplete :
    (Accepted sparse ∧ sentTexts (takenEmpty sparse) = ["INSERT INTO readings () VALUES ()"] ∧
      ((Sentence.insert []).statement sparse.target).text = "INSERT INTO readings () VALUES ()" ∧
      ¬ (Sentence.insert []).Complete sparse.target) ∧
    Accepted blank ∧ sentTexts (takenEmpty blank) = ["SELECT * FROM "] ∧
      (Sentence.scan.statement blank.target).text = "SELECT * FROM " ∧
      ¬ Sentence.scan.Complete blank.target := by
  refine ⟨⟨accepted_sparse, sentTexts_sparse, ?_, fun h => h.1 rfl⟩, accepted_blank, sentTexts_blank, ?_,
    fun h => h rfl⟩
  · decide +kernel
  · decide +kernel

end Statement
end Conveyor
