import Conveyor.Proofs.Mapping.Fault

/-!
# Flaws of mappings

Validation reports every mapping of a list whose column or source field is that of a mapping before it, or
whose transform does not exist. What it reports is said of the list alone, without the order of the checks
(`IsFlawed`), and so is the order of the reports. Mappings without flaws are resolved without an error of
validation (`mappings_reported`).
-/

namespace Conveyor.Validation

/-- What can be wrong with a mapping of a list. -/
inductive Flaw where
  | column (name : String) (first : Nat)
  | source (name : String)
  | transform (name : String)

namespace Flaw

/-- The field of a mapping that has the flaw. -/
def field : Flaw → String
  | .column .. => "destinationColumn"
  | .source _ => "sourceField"
  | .transform _ => "transformType"

def cause : Flaw → IssueCause
  | .column name first => .duplicateColumn name first
  | .source name => .duplicateSource name
  | .transform name => .unknownTransform name

/-- The flaws of one mapping are reported in this order. -/
def rank : Flaw → Nat
  | .column .. => 0
  | .source _ => 1
  | .transform _ => 2

end Flaw

/-- A flaw of the mapping at an index. -/
structure Finding where
  index : Nat
  flaw : Flaw

namespace Finding

/-- The issue under which a finding is reported. -/
def issue (place : Place) (f : Finding) : Issue :=
  ⟨place ++ [.field "fieldMappings", .index f.index, .field f.flaw.field], f.flaw.cause⟩

/-- One finding is reported before another. -/
def Precedes (f g : Finding) : Prop :=
  f.index < g.index ∨ f.index = g.index ∧ f.flaw.rank < g.flaw.rank

end Finding

/-- The first mapping of a list to a column. -/
def IsFirst (ms : List FieldMapping) (column : String) (first : Nat) : Prop :=
  (∃ m, ms[first]? = some m ∧ m.destinationColumn = column) ∧
    ∀ k < first, ∀ m, ms[k]? = some m → m.destinationColumn ≠ column

/-- A list of mappings has a flaw at an index. -/
inductive IsFlawed (ms : List FieldMapping) : Finding → Prop where
  | column {i first : Nat} {m : FieldMapping} (here : ms[i]? = some m) (before : first < i)
    (same : IsFirst ms m.destinationColumn first) : IsFlawed ms ⟨i, .column m.destinationColumn first⟩
  | source {i j : Nat} {m other : FieldMapping} (here : ms[i]? = some m) (before : j < i)
    (there : ms[j]? = some other) (same : other.sourceField = m.sourceField) :
    IsFlawed ms ⟨i, .source m.sourceField⟩
  | transform {i : Nat} {m : FieldMapping} {name : String} (here : ms[i]? = some m)
    (named : m.transformType = some name) (nonempty : name ≠ "")
    (unknown : Mapping.Transform.ofName? name = none) : IsFlawed ms ⟨i, .transform name⟩

/-! ## The flaws of one mapping -/

section One

variable {before : List FieldMapping} {m : FieldMapping} {f : Flaw}

/-- The name of a mapping's transform if there is no such transform. -/
def unknownName (m : FieldMapping) : Option String :=
  m.transformType.filter fun name => !name.isEmpty && (Mapping.Transform.ofName? name).isNone

/-- The flaws of a mapping, given those before it. -/
def flaws (before : List FieldMapping) (m : FieldMapping) : List Flaw :=
  (position? (·.destinationColumn = m.destinationColumn) before).toList.map
      (.column m.destinationColumn) ++
    (if before.any (·.sourceField = m.sourceField) then [.source m.sourceField] else []) ++
    (unknownName m).toList.map .transform

theorem mappingIssues_eq (here : Place) (before : List FieldMapping) (m : FieldMapping) :
    mappingIssues here before m =
      (flaws before m).map fun f => ⟨here ++ [.field f.field], f.cause⟩ := by
  unfold mappingIssues flaws unknownName
  rw [List.map_append, List.map_append]
  congr 2
  · cases position? (·.destinationColumn = m.destinationColumn) before <;> rfl
  · unfold issueIf
    split <;> rfl
  · cases m.transformType with
    | none => rfl
    | some name =>
      simp only [issueIf, Option.filter]
      split <;> rfl

theorem mem_flaws :
    f ∈ flaws before m ↔
      (∃ first, position? (·.destinationColumn = m.destinationColumn) before = some first ∧
        f = .column m.destinationColumn first) ∨
      ((∃ other ∈ before, other.sourceField = m.sourceField) ∧ f = .source m.sourceField) ∨
      ∃ name, m.transformType = some name ∧ name ≠ "" ∧ Mapping.Transform.ofName? name = none ∧
        f = .transform name := by
  simp only [flaws, unknownName, List.mem_append, List.mem_map, Option.mem_toList,
    Option.filter_eq_some_iff, or_assoc]
  refine or_congr (exists_congr fun first => and_congr_right fun _ => eq_comm) (or_congr ?_ ?_)
  · split <;> simp_all
  · refine exists_congr fun name => ?_
    simp [and_assoc, @eq_comm _ f]

/-- A mapping has at most one flaw of each kind. -/
theorem pairwise_flaws (before : List FieldMapping) (m : FieldMapping) :
    (flaws before m).Pairwise fun f g => f.rank < g.rank := by
  unfold flaws
  generalize position? (·.destinationColumn = m.destinationColumn) before = first
  generalize unknownName m = name
  cases first <;> cases name <;> split <;> simp [Flaw.rank]

end One

/-! ## The flaws of a list -/

section All

variable {ms : List FieldMapping} {m : FieldMapping} {i : Nat} {f : Finding}

theorem position?_eq {α : Type} (p : α → Bool) (items : List α) :
    position? p items = items.findIdx? p := by
  rw [position?, List.findIdx?_eq_guard_findIdx_lt, Option.guard]
  simp only [List.findIdx_lt_length, List.any_eq_true, decide_eq_true_eq]

/-- The mapping of a column that comes first among those before an index comes first of all. -/
theorem position?_take {column : String} {first : Nat} :
    position? (·.destinationColumn = column) (ms.take i) = some first ↔
      first < i ∧ IsFirst ms column first := by
  rw [position?_eq, List.findIdx?_eq_some_iff_getElem]
  constructor
  · rintro ⟨hlt, hsame, hbefore⟩
    rw [List.length_take] at hlt
    rw [List.getElem_take, decide_eq_true_eq] at hsame
    refine ⟨by omega, ⟨_, List.getElem?_eq_getElem (by omega), hsame⟩, ?_⟩
    intro k hk m hm
    obtain ⟨hk', rfl⟩ := List.getElem?_eq_some_iff.mp hm
    have hother := hbefore k hk
    rwa [List.getElem_take, decide_eq_true_eq] at hother
  · rintro ⟨hlt, ⟨m, hm, hsame⟩, hbefore⟩
    obtain ⟨hlength, rfl⟩ := List.getElem?_eq_some_iff.mp hm
    refine ⟨by rw [List.length_take]; omega, ?_, ?_⟩
    · rw [List.getElem_take, decide_eq_true_eq]
      exact hsame
    · intro k hk
      rw [List.getElem_take, decide_eq_true_eq]
      exact hbefore k hk _ (List.getElem?_eq_getElem _)

theorem mem_flaws_iff (here : ms[i]? = some m) {flaw : Flaw} :
    flaw ∈ flaws (ms.take i) m ↔ IsFlawed ms ⟨i, flaw⟩ := by
  rw [mem_flaws]
  constructor
  · rintro (⟨first, hfirst, rfl⟩ | ⟨⟨other, hother, hsame⟩, rfl⟩ | ⟨name, hname, hne, hnone, rfl⟩)
    · obtain ⟨hbefore, hsame⟩ := position?_take.mp hfirst
      exact .column here hbefore hsame
    · obtain ⟨j, hj, rfl⟩ := List.mem_take_iff_getElem.mp hother
      exact .source here (by omega) (List.getElem?_eq_getElem _) hsame
    · exact .transform here hname hne hnone
  · rintro (⟨hm, hbefore, hsame⟩ | ⟨hm, hbefore, hother, hsame⟩ | ⟨hm, hname, hne, hnone⟩)
    all_goals cases here.symm.trans hm
    · exact .inl ⟨_, position?_take.mpr ⟨hbefore, hsame⟩, rfl⟩
    · obtain ⟨hlength, rfl⟩ := List.getElem?_eq_some_iff.mp hother
      refine .inr (.inl ⟨⟨_, List.mem_take_iff_getElem.mpr ⟨_, by omega, rfl⟩, hsame⟩, rfl⟩)
    · exact .inr (.inr ⟨_, hname, hne, hnone, rfl⟩)

/-- All flaws of a list of mappings. -/
def findings (ms : List FieldMapping) : List Finding :=
  ms.zipIdx.flatMap fun (m, i) => (flaws (ms.take i) m).map (Finding.mk i)

theorem mappingsIssues_eq (place : Place) (ms : List FieldMapping) :
    mappingsIssues place ms = (findings ms).map (Finding.issue place) := by
  rw [mappingsIssues, findings, List.map_flatMap]
  simp only [mappingIssues_eq, List.map_map]
  refine congrArg (List.flatMap · _) (funext fun _ => List.map_congr_left fun f _ => ?_)
  simp [Finding.issue]

theorem mem_findings : f ∈ findings ms ↔ IsFlawed ms f := by
  obtain ⟨i, flaw⟩ := f
  simp only [findings, List.mem_flatMap, List.mem_map, Prod.exists, List.mk_mem_zipIdx_iff_getElem?,
    Finding.mk.injEq]
  constructor
  · rintro ⟨m, i, here, flaw, hflaw, rfl, rfl⟩
    exact (mem_flaws_iff here).mp hflaw
  · intro h
    obtain ⟨m, here⟩ : ∃ m, ms[i]? = some m := by cases h <;> exact ⟨_, ‹ms[i]? = _›⟩
    exact ⟨m, i, here, flaw, (mem_flaws_iff here).mpr h, rfl, rfl⟩

theorem pairwise_findings (ms : List FieldMapping) : (findings ms).Pairwise Finding.Precedes := by
  rw [findings, List.pairwise_flatMap]
  constructor
  · rintro ⟨m, i⟩ -
    rw [List.pairwise_map]
    exact (pairwise_flaws _ m).imp fun h => .inr ⟨rfl, h⟩
  · have hascending : (ms.zipIdx.map Prod.snd).Pairwise (· < ·) := by
      rw [List.zipIdx_map_snd]
      exact List.pairwise_lt_range'
    refine (List.pairwise_map.mp hascending).imp ?_
    rintro ⟨m, i⟩ ⟨m', i'⟩ hlt f hf g hg
    obtain ⟨flaw, -, rfl⟩ := List.mem_map.mp hf
    obtain ⟨flaw', -, rfl⟩ := List.mem_map.mp hg
    exact .inl hlt

theorem validMappings_iff :
    ValidMappings ms ↔ (ms.map (·.destinationColumn)).Nodup ∧ (ms.map (·.sourceField)).Nodup ∧
      ∀ m ∈ ms, ∀ name, m.transformType = some name → name ≠ "" →
        Mapping.Transform.ofName? name ≠ none := by
  have hempty (name : String) : name.isEmpty = false ↔ name ≠ "" := by
    rw [Bool.eq_false_iff, ne_eq, String.isEmpty_iff]
  constructor
  · intro h
    refine ⟨h.columns, h.sources, fun m hm name hname hne => ?_⟩
    obtain ⟨t, ht⟩ := h.transforms m hm name hname ((hempty name).mpr hne)
    exact Option.ne_none_iff_exists'.mpr ⟨t, ht⟩
  · rintro ⟨columns, sources, transforms⟩
    refine ⟨columns, sources, fun m hm name hname hne => ?_⟩
    exact Option.ne_none_iff_exists'.mp (transforms m hm name hname ((hempty name).mp hne))

/-- Just the flaws of a list of mappings are reported, each once and in the order of the mappings. There are
none if columns and source fields differ from each other and transforms exist, and then no record is refused
by an error of validation. -/
theorem mappings_reported (place : Place) (ms : List FieldMapping) :
    (∃ found : List Finding, mappingsIssues place ms = found.map (Finding.issue place) ∧
      (∀ f, f ∈ found ↔ IsFlawed ms f) ∧ found.Pairwise Finding.Precedes) ∧
    (mappingsIssues place ms = [] ↔
      (ms.map (·.destinationColumn)).Nodup ∧ (ms.map (·.sourceField)).Nodup ∧
        ∀ m ∈ ms, ∀ name, m.transformType = some name → name ≠ "" →
          Mapping.Transform.ofName? name ≠ none) ∧
    (mappingsIssues place ms = [] →
      ∀ record e, Mapping.resolve record ms ≠ .error (.validation e)) := by
  refine ⟨⟨findings ms, mappingsIssues_eq place ms, fun f => mem_findings, pairwise_findings ms⟩,
    ?_, ?_⟩
  · exact mappingsIssues_eq_nil_iff.trans validMappings_iff
  · intro hnone record e hresolve
    have hfaulty := Mapping.faulty_resolve record (mappingsIssues_eq_nil_iff.mp hnone)
    rcases hfaulty.announced _ hresolve with ⟨_, ⟨⟩⟩ | ⟨_, ⟨⟩⟩

/-- A mapping of a source field to a column, with a transform that is named. -/
def mappingOf (source column transform : String) : FieldMapping where
  sourceField := source
  destinationColumn := column
  transformType := some transform

-- The third mapping of a column is reported with the first, and each flaw of a mapping by itself.
example : mappingsIssues [] [mappingOf "a" "x" "trim", mappingOf "b" "x" "", mappingOf "a" "x" "sort"] =
    [Finding.issue [] ⟨1, .column "x" 0⟩, Finding.issue [] ⟨2, .column "x" 0⟩,
      Finding.issue [] ⟨2, .source "a"⟩, Finding.issue [] ⟨2, .transform "sort"⟩] := by
  rfl

theorem trimmed_resolved :
    let ms := [mappingOf "a" "x" "trim", mappingOf "b" "y" ""]
    mappingsIssues [] ms = [] ∧ ∀ record e, Mapping.resolve record ms ≠ .error (.validation e) := by
  intro ms
  have hnone : mappingsIssues [] ms = [] := by rfl
  exact ⟨hnone, (mappings_reported [] ms).2.2 hnone⟩

end All

end Conveyor.Validation
