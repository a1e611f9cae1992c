import Mathlib.Data.List.Nodup
import Conveyor.Proofs.Statement.Sentence

/-!
# Statements and their parameters

Text and parameters of a statement belong together: the values stand in the order of their question
marks, next to the columns that they are for. The key picks the row and is never set, but for the
assignment of the key to itself that stands for nothing at all.
-/

namespace Conveyor.Statement

open Mapping (ResolvedField)

/-- The text ends with the condition that picks the row of a key. -/
def EndsWithKey (d : Dialect) (key : String) (s : Statement) : Prop :=
  ∃ start, s.text = start ++ (" WHERE " ++ quoteIdentifier d key ++ " = ?")

/-- The statement says what the operation asks for, with these parameters. What it sets are the fields
that are not of the key, and the key is that of one field only. -/
def Aligned (t : Target) (fields : List ResolvedField) (primaryKey : Option String) (s : Statement) :
    Operation → Prop
  | .insert => s = (Sentence.insert fields).statement t ∧ s.params = fields.map (·.value)
  | .upsert =>
    ∃ key ∈ fields, primaryKey = some key.column ∧
      s = (Sentence.upsert fields (fields.filter (·.column ≠ key.column)) key.column).statement t ∧
      s.params = fields.map (·.value)
  | .update =>
    ∃ key ∈ fields, primaryKey = some key.column ∧
      (∀ f ∈ fields, primaryKey = some f.column → f = key) ∧
      s = (Sentence.update (fields.filter (·.column ≠ key.column)) key).statement t ∧
      s.params = (fields.filter (·.column ≠ key.column)).map (·.value) ++ [key.value] ∧
      EndsWithKey t.dialect key.column s
  | .delete =>
    ∃ key ∈ fields, primaryKey = some key.column ∧
      (∀ f ∈ fields, primaryKey = some f.column → f = key) ∧
      s = (Sentence.delete key).statement t ∧ s.params = [key.value] ∧
      EndsWithKey t.dialect key.column s
  | .select => s.params = []

variable {t : Target} {fields : List ResolvedField} {op : Operation}
  {primaryKey customQuery : Option String} {s : Statement} {key : ResolvedField}

theorem nonKey_eq (fields : List ResolvedField) (column : String) :
    nonKey fields (some column) = fields.filter (·.column ≠ column) := by
  simp [nonKey]

/-- What ends with the condition on the key is written so. -/
theorem endsWithKey_ofParts (d : Dialect) (parts : List Part) (key : ResolvedField) :
    EndsWithKey d key.column (ofParts d (parts ++ whereParts key)) := by
  refine ⟨String.ofList (written d parts), ?_⟩
  rw [ofParts_text, written_append, String.ofList_append, written_whereParts, String.ofList_toList]
  rfl

/-- Among fields of different columns only one has the key. -/
theorem eq_of_keyField? (distinct : (fields.map (·.column)).Nodup)
    (h : keyField? fields primaryKey = some key) {f : ResolvedField} (hf : f ∈ fields)
    (hcolumn : primaryKey = some f.column) : f = key := by
  have hkey : some key.column = primaryKey := column_of_keyField? h
  have hcolumns : f.column = key.column := Option.some.inj (hcolumn.symm.trans hkey.symm)
  exact List.inj_on_of_nodup_map distinct hf (List.mem_of_find?_eq_some h) hcolumns

theorem AsksFor.aligned {x : Sentence} (h : AsksFor fields primaryKey customQuery op x)
    (distinct : (fields.map (·.column)).Nodup) :
    Aligned t fields primaryKey (x.statement t) op := by
  cases h with
  | insert => exact ⟨rfl, by simp [Sentence.statement, Sentence.parts, values]⟩
  | @upsert f key =>
    obtain rfl := column_of_keyField? key
    refine ⟨f, List.mem_of_find?_eq_some key, rfl, by rw [nonKey_eq], ?_⟩
    simp [Sentence.statement, Sentence.parts, values]
  | @update f key =>
    have hunique : ∀ g ∈ fields, primaryKey = some g.column → g = f :=
      fun g hg hcolumn => eq_of_keyField? distinct key hg hcolumn
    obtain rfl := column_of_keyField? key
    refine ⟨f, List.mem_of_find?_eq_some key, rfl, hunique, by rw [nonKey_eq], ?_, ?_⟩
    · simp [Sentence.statement, Sentence.parts, values, nonKey_eq, whereParts]
    · exact endsWithKey_ofParts t.dialect _ f
  | @delete f key =>
    have hunique : ∀ g ∈ fields, primaryKey = some g.column → g = f :=
      fun g hg hcolumn => eq_of_keyField? distinct key hg hcolumn
    obtain rfl := column_of_keyField? key
    refine ⟨f, List.mem_of_find?_eq_some key, rfl, hunique, rfl, ?_, ?_⟩
    · simp [Sentence.statement, Sentence.parts, whereParts]
    · exact endsWithKey_ofParts t.dialect _ f
  | scan unasked => simp [Aligned, Sentence.statement, Sentence.parts]
  | own asked text => rfl

/-- What an operation cannot be without: a keyed one the name of the key, and HANA has no selection. -/
def Unwritable (d : Dialect) (primaryKey : Option String) (op : Operation) : Prop :=
  isKeyed op = true ∧ (primaryKey = none ∨ primaryKey = some "") ∨ op = .select ∧ d = .hana

theorem operationIssue?_eq_none_iff {d : Dialect} :
    operationIssue? op d primaryKey = none ↔ ¬ Unwritable d primaryKey op := by
  have hgiven : primaryKey = none ∨ primaryKey = some "" ↔ given primaryKey = false := by
    cases primaryKey with
    | none => simp [given]
    | some key => simp [given]
  unfold operationIssue? Unwritable
  rw [hgiven]
  cases isKeyed op <;> cases given primaryKey <;> simp

/-- Synthesis comes to one of three things. -/
theorem synthesize_aligned (t : Target) (fields : List ResolvedField) (op : Operation)
    (primaryKey customQuery : Option String) (distinct : (fields.map (·.column)).Nodup) :
    (∀ s, synthesize t fields (some op) primaryKey customQuery = .ok s →
      Aligned t fields primaryKey s op) ∧
    ((∃ issues, synthesize t fields (some op) primaryKey customQuery = .error (.config issues)) ↔
      Unwritable t.dialect primaryKey op) ∧
    ((∃ e, synthesize t fields (some op) primaryKey customQuery = .error (.mapping e)) ↔
      ¬ Unwritable t.dialect primaryKey op ∧ Lacks fields primaryKey op) ∧
    ((∃ s, synthesize t fields (some op) primaryKey customQuery = .ok s) ↔
      ¬ Unwritable t.dialect primaryKey op ∧ ¬ Lacks fields primaryKey op) := by
  have hcases := synthesized t fields primaryKey customQuery op
  generalize synthesize t fields (some op) primaryKey customQuery = out at hcases
  cases hcases with
  | unwritable issue =>
    have hunwritable : Unwritable t.dialect primaryKey op := by
      by_contra h
      rw [operationIssue?_eq_none_iff.mpr h] at issue
      cases issue
    exact ⟨nofun, by simp [hunwritable], by simp [hunwritable], by simp [hunwritable]⟩
  | lacking writable lacks =>
    have hwritable := operationIssue?_eq_none_iff.mp writable
    exact ⟨nofun, by simp [hwritable], by simp [hwritable, lacks], by simp [lacks]⟩
  | written writable asks =>
    have hwritable := operationIssue?_eq_none_iff.mp writable
    refine ⟨?_, by simp [hwritable], by simp [asks.not_lacks], by simp [hwritable, asks.not_lacks]⟩
    rintro _ ⟨⟩
    exact asks.aligned distinct

/-- A record whose key stands between the other columns. -/
def keyBetween : List ResolvedField :=
  [⟨"level", .int 21⟩, ⟨"id", .int 7⟩, ⟨"unit", .text "cm"⟩]

theorem keyBetween_aligned :
    (keyBetween.map (·.column)).Nodup ∧
      ∃ s, synthesize ⟨.mysql, "readings", none⟩ keyBetween (some .update) (some "id") none = .ok s ∧
        s.text = "UPDATE readings SET `level` = ?, `unit` = ? WHERE `id` = ?" ∧
        s.params = [.int 21, .text "cm", .int 7] ∧
        Aligned ⟨.mysql, "readings", none⟩ keyBetween (some "id") s .update := by
  have distinct : (keyBetween.map (·.column)).Nodup := by decide
  obtain ⟨aligned, -⟩ :=
    synthesize_aligned ⟨.mysql, "readings", none⟩ keyBetween .update (some "id") none distinct
  refine ⟨distinct, _, rfl, ?_, rfl, aligned _ rfl⟩
  decide +kernel

end Conveyor.Statement
