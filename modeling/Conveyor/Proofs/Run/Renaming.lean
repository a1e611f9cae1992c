import Conveyor.Proofs.Keyed
import Conveyor.Proofs.Outcome
import Conveyor.Run.Action

/-!
# Renaming

What a transform makes of a record. Its pairs of a new name and a path come one after the other, but
each takes its value from the record as it came in, so no pair can spoil the value of another. What a
pair takes away, however, may be what an earlier one has given (`Undoes`). A transform in which that
happens loses a field; any other renames all of them at once (`RenamedAtOnce`).
-/

namespace Conveyor.Step

open Mapping Outcome

/-- The pair has a value to rename. -/
def Finds (record : Fields) (pair : String × String) (value : Value) : Prop :=
  lookup record pair.2 = .ok (some value)

/-- The key is the new name of a pair that has a value to rename. -/
def IsGiven (record : Fields) (renames : Keyed String) (key : String) : Prop :=
  ∃ pair ∈ renames, pair.1 = key ∧ ∃ value, Finds record pair value

/-- The key is the path of a pair that has a value to rename. -/
def IsTaken (record : Fields) (renames : Keyed String) (key : String) : Prop :=
  ∃ pair ∈ renames, pair.2 = key ∧ ∃ value, Finds record pair value

/-- The later pair takes away what the earlier one has given. -/
def Undoes (record : Fields) (earlier later : String × String) : Prop :=
  later.2 = earlier.1 ∧ (∃ value, Finds record earlier value) ∧ ∃ value, Finds record later value

/-- Fields that are not renamed are as they were, and the output has no fields but those and the
renamed ones. -/
structure LeavesOthers (record : Fields) (renames : Keyed String) (output : Fields) : Prop where
  kept : ∀ key, record.has key → ¬IsGiven record renames key → ¬IsTaken record renames key →
    output.get? key = record.get? key
  nothingElse : ∀ key, output.has key → IsGiven record renames key ∨
    record.has key ∧ ¬IsGiven record renames key ∧ ¬IsTaken record renames key

/-- Every pair that has a value to rename gives it its new name, and the others are left alone. -/
structure RenamedAtOnce (record : Fields) (renames : Keyed String) (output : Fields) : Prop extends
    LeavesOthers record renames output where
  given : ∀ pair ∈ renames, ∀ value, Finds record pair value → output.get? pair.1 = some value

variable {record output result : Fields} {renames : Keyed String} {pair : String × String}
  {key : String} {value : Value}

theorem isGiven_cons : IsGiven record (pair :: renames) key ↔
    (pair.1 = key ∧ ∃ value, Finds record pair value) ∨ IsGiven record renames key := by
  simp [IsGiven]

theorem isTaken_cons : IsTaken record (pair :: renames) key ↔
    (pair.2 = key ∧ ∃ value, Finds record pair value) ∨ IsTaken record renames key := by
  simp [IsTaken]

/-! ## One pair after the other -/

/-- The output with the value of a pair, if it has any, under its new name. -/
def carry (pair : String × String) (output : Fields) : Option Value → Fields
  | some value => (output.erase pair.2).put pair.1 value
  | none => output

theorem rename_cons : rename record output (pair :: renames) = .ok result ↔
    ∃ found, lookup record pair.2 = .ok found ∧
      rename record (carry pair output found) renames = .ok result := by
  obtain ⟨name, path⟩ := pair
  rw [rename, bind_eq_ok_iff]
  constructor
  · rintro ⟨found, hfound, h⟩
    refine ⟨found, hfound, ?_⟩
    cases found with
    | none => exact h
    | some value => exact h
  · rintro ⟨found, hfound, h⟩
    refine ⟨found, hfound, ?_⟩
    cases found with
    | none => exact h
    | some value => exact h

theorem rename_append (before after : Keyed String) :
    rename record output (before ++ after) = .ok result ↔
      ∃ middle, rename record output before = .ok middle ∧
        rename record middle after = .ok result := by
  induction before generalizing output with
  | nil => simp [rename]
  | cons pair before ih =>
    simp only [List.cons_append, rename_cons, ih]
    constructor
    · intro ⟨found, hfound, middle, hbefore, hafter⟩
      exact ⟨middle, ⟨found, hfound, hbefore⟩, hafter⟩
    · intro ⟨middle, ⟨found, hfound, hbefore⟩, hafter⟩
      exact ⟨found, hfound, middle, hbefore, hafter⟩

/-- A transform has an output exactly if every path can be followed, whether to a value or not. -/
theorem exists_rename_iff (output : Fields) :
    (∃ result, rename record output renames = .ok result) ↔
      ∀ pair ∈ renames, ∃ found, lookup record pair.2 = .ok found := by
  induction renames generalizing output with
  | nil => simp [rename]
  | cons pair renames ih =>
    simp only [rename_cons, List.forall_mem_cons]
    constructor
    · intro ⟨result, found, hfound, h⟩
      exact ⟨⟨found, hfound⟩, (ih _).mp ⟨result, h⟩⟩
    · intro ⟨⟨found, hfound⟩, hrest⟩
      obtain ⟨result, h⟩ := (ih (carry pair output found)).mpr hrest
      exact ⟨result, found, hfound, h⟩

theorem nodup_carry (distinct : output.keys.Nodup) (found : Option Value) :
    (carry pair output found).keys.Nodup := by
  cases found with
  | none => exact distinct
  | some value => exact Keyed.nodup_keys_put _ _ (Keyed.nodup_keys_erase _ distinct)

theorem nodup_rename (distinct : output.keys.Nodup)
    (h : rename record output renames = .ok result) : result.keys.Nodup := by
  induction renames generalizing output with
  | nil =>
    cases h
    exact distinct
  | cons pair renames ih =>
    obtain ⟨found, -, h⟩ := rename_cons.mp h
    exact ih (nodup_carry distinct found) h

/-- A key that the pair does not give is gone if the pair takes it. -/
theorem get?_carry_of_ne (distinct : output.keys.Nodup) (hkey : pair.1 ≠ key) :
    (carry pair output (some value)).get? key = if pair.2 = key then none else output.get? key := by
  rw [carry, Keyed.get?_put_other _ _ hkey.symm]
  by_cases h : pair.2 = key
  · rw [if_pos h, h, Keyed.get?_erase_same distinct]
  · rw [if_neg h, Keyed.get?_erase_other _ (Ne.symm h)]

/-- A key that no pair gives is gone if a pair takes it, and else is left as it was. -/
theorem get?_rename_of_not_isGiven (distinct : output.keys.Nodup)
    (h : rename record output renames = .ok result) (hgiven : ¬IsGiven record renames key) :
    (IsTaken record renames key → result.get? key = none) ∧
      (¬IsTaken record renames key → result.get? key = output.get? key) := by
  induction renames generalizing output with
  | nil =>
    cases h
    simp [IsTaken]
  | cons pair renames ih =>
    obtain ⟨found, hfound, h⟩ := rename_cons.mp h
    rw [isGiven_cons, not_or] at hgiven
    obtain ⟨hpair, hrest⟩ := hgiven
    have later := ih (nodup_carry distinct found) h hrest
    rw [isTaken_cons]
    cases found with
    | none =>
      -- the pair finds nothing, so it takes nothing
      simpa [Finds, hfound, carry] using later
    | some value =>
      have finds : ∃ value, Finds record pair value := ⟨value, hfound⟩
      have hname : pair.1 ≠ key := fun hkey => hpair ⟨hkey, finds⟩
      rw [get?_carry_of_ne distinct hname] at later
      by_cases htaken : IsTaken record renames key
      · simp [htaken, later.1 htaken]
      · by_cases hpath : pair.2 = key <;> simp [finds, htaken, hpath, later.2 htaken]

/-- The new name of a pair that finds a value has it in the end, unless a later pair takes it. -/
theorem get?_rename_of_finds {before after : Keyed String} (distinct : output.keys.Nodup)
    (hnames : Keyed.keys (before ++ pair :: after) |>.Nodup)
    (h : rename record output (before ++ pair :: after) = .ok result)
    (finds : Finds record pair value) :
    (IsTaken record after pair.1 → result.get? pair.1 = none) ∧
      (¬IsTaken record after pair.1 → result.get? pair.1 = some value) := by
  obtain ⟨middle, hbefore, h⟩ := (rename_append before _).mp h
  obtain ⟨found, hfound, h⟩ := rename_cons.mp h
  rw [finds, Except.ok.injEq] at hfound
  subst hfound
  have hput : (carry pair middle (some value)).get? pair.1 = some value :=
    Keyed.get?_put_same _ _ _
  have hother : ¬IsGiven record after pair.1 := by
    intro ⟨later, hlater, hname, _⟩
    rw [Keyed.keys, List.map_append, List.map_cons] at hnames
    have hnew := (List.nodup_cons.mp (List.nodup_append.mp hnames).2.1).1
    exact hnew (hname ▸ List.mem_map_of_mem hlater)
  have later := get?_rename_of_not_isGiven
    (nodup_carry (nodup_rename distinct hbefore) (some value)) h hother
  rwa [hput] at later

/-! ## Transforms -/

/-- The step is a transform, and in the scope its input is the record. No name occurs twice in the
record, nor among the new names. -/
structure Transforms (s : Step) (scope : Scope) (record : Fields) : Prop where
  kind : s.kind = .transform
  input : ∃ input, scope.renderInput s.inputMapping = .ok input ∧ input.fields? = some record
  distinct : record.keys.Nodup
  names : (s.renames.getD []).keys.Nodup

variable {s : Step} {scope : Scope}

theorem Transforms.action_eq_ok_iff (h : s.Transforms scope record) {action : Action} :
    s.action scope = .ok action ↔ ∃ output,
      rename record record (s.renames.getD []) = .ok output ∧
        action = .finish (.object output) true := by
  obtain ⟨input, hinput, hfields⟩ := h.input
  have haction : s.action scope = s.transformAction input := by
    unfold Step.action
    rw [hinput, h.kind]
    rfl
  rw [haction, transformAction, inputFields, hfields]
  show ((rename record record (s.renames.getD [])).mapError Failure.fault >>= fun output =>
    pure (.finish (.object output) true)) = .ok action ↔ _
  rw [bind_eq_ok_iff]
  simp only [mapError_eq_ok_iff]
  constructor
  · intro ⟨output, houtput, heq⟩
    cases heq
    exact ⟨output, houtput, rfl⟩
  · intro ⟨output, houtput, heq⟩
    exact ⟨output, houtput, heq ▸ rfl⟩

theorem Transforms.leavesOthers (h : s.Transforms scope record)
    (renamed : rename record record (s.renames.getD []) = .ok output) :
    LeavesOthers record (s.renames.getD []) output := by
  constructor
  · intro key _ hgiven htaken
    exact (get?_rename_of_not_isGiven h.distinct renamed hgiven).2 htaken
  · intro key hhas
    by_cases hgiven : IsGiven record (s.renames.getD []) key
    · exact .inl hgiven
    · have hother := get?_rename_of_not_isGiven h.distinct renamed hgiven
      by_cases htaken : IsTaken record (s.renames.getD []) key
      · simp [Keyed.has, hother.1 htaken] at hhas
      · rw [Keyed.has, hother.2 htaken] at hhas
        exact .inr ⟨hhas, hgiven, htaken⟩

/-- If all names are kept that pairs have given, no pair undoes an earlier one; and conversely. -/
theorem Transforms.renamedAtOnce_iff (h : s.Transforms scope record)
    (renamed : rename record record (s.renames.getD []) = .ok output) :
    RenamedAtOnce record (s.renames.getD []) output ↔
      (s.renames.getD []).Pairwise fun earlier later => ¬Undoes record earlier later := by
  have others := h.leavesOthers renamed
  have hnames := h.names
  generalize s.renames.getD [] = renames at renamed others hnames ⊢
  constructor
  · intro atOnce
    rw [List.pairwise_iff_forall_sublist]
    intro earlier later hsublist ⟨hpath, ⟨value, finds⟩, hfinds⟩
    obtain ⟨front, after, rfl, hearlier, hlater⟩ := List.cons_sublist_iff.mp hsublist
    obtain ⟨before, middle, rfl⟩ := List.append_of_mem hearlier
    have htaken : IsTaken record (middle ++ after) earlier.1 :=
      ⟨later, List.mem_append_right _ (List.singleton_sublist.mp hlater), hpath, hfinds⟩
    rw [List.append_assoc, List.cons_append] at renamed hnames
    have hlost := (get?_rename_of_finds h.distinct hnames renamed finds).1 htaken
    rw [atOnce.given earlier (by simp) value finds] at hlost
    cases hlost
  · intro hpairs
    refine ⟨others, fun pair hpair value finds => ?_⟩
    obtain ⟨before, after, rfl⟩ := List.append_of_mem hpair
    refine (get?_rename_of_finds h.distinct hnames renamed finds).2 ?_
    intro ⟨later, hlater, hpath, hfinds⟩
    have hrest := List.pairwise_cons.mp (List.pairwise_append.mp hpairs).2.1
    exact hrest.1 later hlater ⟨hpath, ⟨value, finds⟩, hfinds⟩

/-- A transform has an output exactly if all of its paths can be followed. Then every other field of
the record is kept, no field comes from elsewhere, and a pair that finds a value gives it its new
name, which it keeps unless it is the path of a later pair that finds a value as well. So all fields
are renamed at once exactly if no pair undoes an earlier one. -/
theorem transform_at_once_iff (h : s.Transforms scope record) :
    ((∃ action, s.action scope = .ok action) ↔
      ∀ pair ∈ s.renames.getD [], ∃ found, lookup record pair.2 = .ok found) ∧
    ∀ action, s.action scope = .ok action →
      ∃ output : Fields, action = .finish (.object output) true ∧ output.keys.Nodup ∧
        LeavesOthers record (s.renames.getD []) output ∧
        (∀ before pair after value, s.renames.getD [] = before ++ pair :: after →
          Finds record pair value →
            (IsTaken record after pair.1 → output.get? pair.1 = none) ∧
              (¬IsTaken record after pair.1 → output.get? pair.1 = some value)) ∧
        (RenamedAtOnce record (s.renames.getD []) output ↔
          (s.renames.getD []).Pairwise fun earlier later => ¬Undoes record earlier later) := by
  constructor
  · rw [← exists_rename_iff record]
    simp [h.action_eq_ok_iff]
  · intro action haction
    obtain ⟨output, renamed, heq⟩ := h.action_eq_ok_iff.mp haction
    refine ⟨output, heq, nodup_rename h.distinct renamed, h.leavesOthers renamed, ?_,
      h.renamedAtOnce_iff renamed⟩
    intro before pair after value hsplit finds
    have hnames := h.names
    rw [hsplit] at renamed hnames
    exact get?_rename_of_finds h.distinct hnames renamed finds

/-- A transform with these new names. -/
def renamer (renames : Keyed String) : Step where
  order := 1
  name := "rename"
  kind := .transform
  renames := some renames

/-- A record with a field in a field. -/
def nested : Fields :=
  [("a", .int 1), ("b", .int 2), ("site", .object [("town", .text "Ulm")]), ("level", .int 21)]

/-- A name may be taken before it is given. -/
theorem chain_at_once :
    let renames := [("c", "b"), ("b", "a"), ("town", "site.town")]
    (renamer renames).Transforms (Scope.start nested) nested ∧
      (∀ pair ∈ renames, ∃ found, lookup nested pair.2 = .ok found) ∧
      ∃ output, (renamer renames).action (Scope.start nested) =
          .ok (.finish (.object output) true) ∧
        RenamedAtOnce nested renames output := by
  intro renames
  have transforms : (renamer renames).Transforms (Scope.start nested) nested :=
    ⟨rfl, ⟨.object nested, rfl, rfl⟩, by decide, by decide⟩
  obtain ⟨exists_iff, outputs⟩ := transform_at_once_iff transforms
  have followed : ∀ pair ∈ renames, ∃ found, lookup nested pair.2 = .ok found := by
    simp only [renames, List.forall_mem_cons]
    exact ⟨⟨_, rfl⟩, ⟨_, rfl⟩, ⟨_, rfl⟩, List.forall_mem_nil _⟩
  obtain ⟨action, haction⟩ := exists_iff.mpr followed
  obtain ⟨output, rfl, -, -, -, atOnce⟩ := outputs action haction
  refine ⟨transforms, followed, output, haction, atOnce.mpr ?_⟩
  show renames.Pairwise _
  simp [renames, Undoes]

/-- Two fields that exchange their names: the second pair takes away what the first has given. -/
theorem swap_loses_field :
    (renamer [("a", "b"), ("b", "a")]).action (Scope.start [("a", .int 1), ("b", .int 2)]) =
      .ok (.finish (.object [("b", .int 1)]) true) ∧
    Finds [("a", .int 1), ("b", .int 2)] ("a", "b") (.int 2) ∧
    ¬RenamedAtOnce [("a", .int 1), ("b", .int 2)] [("a", "b"), ("b", "a")] [("b", .int 1)] := by
  have finds : Finds [("a", .int 1), ("b", .int 2)] ("a", "b") (.int 2) := rfl
  refine ⟨rfl, finds, fun atOnce => ?_⟩
  have hgiven := atOnce.given ("a", "b") (by simp) (.int 2) finds
  cases hgiven

end Conveyor.Step
