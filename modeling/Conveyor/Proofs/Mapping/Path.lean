import Conveyor.Mapping.Path
import Conveyor.Proofs.Outcome

/-!
# Paths that mislead

Looking into a record has an answer, if only that nothing is there, but for one kind of path: a part of it
that comes to a list looks like a position and is no number. Such a part is a fault
(`lookup_eq_error_iff`).
-/

namespace Conveyor.Mapping

open Outcome

/-! ## Positions -/

/-- A part of a path that looks like a position and is none: it has nothing but digit signs, and too many
of them, or one that is no decimal digit. -/
structure IsMisnumber (part : String) : Prop where
  nonempty : part.toList ≠ []
  signs : ∀ c ∈ part.toList, Text.isDigitSign c = true
  unread : 4300 < part.toList.length ∨ ∃ c ∈ part.toList, Text.decimalValue? c = none

/-- Digits are read as a number unless one of them has no value. -/
theorem natOfDigits?_eq_none_iff {cs : List Char} (hcs : cs ≠ []) :
    Text.natOfDigits? cs = none ↔ ∃ c ∈ cs, Text.decimalValue? c = none := by
  have hdigits : ∀ cs : List Char, cs.mapM Text.decimalValue? = none ↔
      ∃ c ∈ cs, Text.decimalValue? c = none := by
    intro cs
    induction cs with
    | nil => simp
    | cons c cs ih =>
      rw [List.mapM_cons, List.exists_mem_cons_iff, ← ih]
      cases Text.decimalValue? c with
      | none => simp
      | some d => cases cs.mapM Text.decimalValue? <;> simp
  rw [Text.natOfDigits?, if_neg (by simpa using hcs), Option.map_eq_none_iff, hdigits]

theorem position?_eq_error_iff {part : String} {f : Fault} :
    position? part = .error f ↔ f = .badValue ∧ IsMisnumber part := by
  unfold position?
  dsimp only
  by_cases hsigns : part.toList ≠ [] ∧ ∀ c ∈ part.toList, Text.isDigitSign c = true
  · obtain ⟨nonempty, signs⟩ := hsigns
    have hall : part.toList.all Text.isDigitSign = true := List.all_eq_true.mpr signs
    have hempty : part.toList.isEmpty = false := by simpa using nonempty
    rw [hall, hempty, if_neg (by decide)]
    by_cases hlong : 4300 < part.toList.length
    · rw [if_pos hlong]
      refine ⟨fun h => ⟨(Except.error.inj h).symm, nonempty, signs, .inl hlong⟩, ?_⟩
      rintro ⟨rfl, -⟩
      rfl
    · rw [if_neg hlong]
      cases hnat : Text.natOfDigits? part.toList with
      | none =>
        have hvalue := (natOfDigits?_eq_none_iff nonempty).mp hnat
        refine ⟨fun h => ⟨(Except.error.inj h).symm, nonempty, signs, .inr hvalue⟩, ?_⟩
        rintro ⟨rfl, -⟩
        rfl
      | some n =>
        refine ⟨nofun, ?_⟩
        rintro ⟨-, -, -, hlong' | hvalue⟩
        · exact absurd hlong' hlong
        · rw [(natOfDigits?_eq_none_iff nonempty).mpr hvalue] at hnat
          cases hnat
  · have hother : (part.toList.isEmpty || !part.toList.all Text.isDigitSign) = true := by
      by_contra h
      simp only [Bool.or_eq_true, List.isEmpty_iff, Bool.not_eq_true', not_or, Bool.not_eq_false,
        List.all_eq_true] at h
      exact hsigns h
    rw [if_pos hother]
    exact ⟨nofun, fun h => absurd ⟨h.2.nonempty, h.2.signs⟩ hsigns⟩

/-! ## Lookups -/

theorem descend_eq_error_iff {v : Value} {part : String} {f : Fault} :
    descend v part = .error f ↔ f = .badValue ∧ IsMisnumber part ∧ ∃ items, v = .list items := by
  unfold descend
  cases v with
  | list items =>
    dsimp only
    rw [bind_eq_error_iff, position?_eq_error_iff]
    constructor
    · rintro (⟨hf, hpart⟩ | ⟨found, -, h⟩)
      · exact ⟨hf, hpart, items, rfl⟩
      · cases found <;> cases h
    · rintro ⟨hf, hpart, -⟩
      exact .inl ⟨hf, hpart⟩
  | _ => simp

/-- What a path leads to is found part by part. -/
theorem follow_cons_eq_ok_iff {v w : Value} {part : String} {rest : List String} :
    follow v (part :: rest) = .ok (some w) ↔
      ∃ u, descend v part = .ok (some u) ∧ follow u rest = .ok (some w) := by
  rw [follow, bind_eq_ok_iff]
  constructor
  · rintro ⟨u?, hu, h⟩
    cases u? with
    | none => cases h
    | some u => exact ⟨u, hu, h⟩
  · rintro ⟨u, hu, h⟩
    exact ⟨some u, hu, h⟩

/-- The parts before one that is no position lead to a list. -/
theorem follow_eq_error_iff {v : Value} {parts : List String} {f : Fault} :
    follow v parts = .error f ↔ f = .badValue ∧ ∃ before part after items,
      parts = before ++ part :: after ∧ follow v before = .ok (some (.list items)) ∧
        IsMisnumber part := by
  induction parts generalizing v with
  | nil => simp [follow]
  | cons part rest ih =>
    rw [follow, bind_eq_error_iff, descend_eq_error_iff]
    constructor
    · rintro (⟨hf, hpart, items, rfl⟩ | ⟨u?, hu, h⟩)
      · exact ⟨hf, [], part, rest, items, rfl, rfl, hpart⟩
      · cases u? with
        | none => cases h
        | some u =>
          obtain ⟨hf, before, part', after, items, rfl, hbefore, hpart'⟩ := ih.mp h
          exact ⟨hf, part :: before, part', after, items, rfl,
            follow_cons_eq_ok_iff.mpr ⟨u, hu, hbefore⟩, hpart'⟩
    · rintro ⟨hf, before, part', after, items, hparts, hbefore, hpart'⟩
      cases before with
      | nil =>
        obtain ⟨rfl, rfl⟩ := List.cons.inj hparts
        cases hbefore
        exact .inl ⟨hf, hpart', items, rfl⟩
      | cons first before =>
        obtain ⟨rfl, rfl⟩ := List.cons.inj hparts
        obtain ⟨u, hu, hbefore⟩ := follow_cons_eq_ok_iff.mp hbefore
        exact .inr ⟨some u, hu, ih.mpr ⟨hf, before, part', after, items, rfl, hbefore, hpart'⟩⟩

/-- A path that misleads in a record: no field has its name, and cut at its dots it comes to a list with a
part that is no position. -/
structure Misleads (record : Fields) (path : String) : Prop where
  absent : record.get? path = none
  dotted : '.' ∈ path.toList
  misnumber : ∃ before part after items, Text.split '.' path = before ++ part :: after ∧
    follow (.object record) before = .ok (some (.list items)) ∧ IsMisnumber part

theorem lookup_eq_error_iff {record : Fields} {path : String} {f : Fault} :
    lookup record path = .error f ↔ f = .badValue ∧ Misleads record path := by
  unfold lookup
  cases hget : record.get? path with
  | some v => exact ⟨nofun, fun h => by simpa [hget] using h.2.absent⟩
  | none =>
    by_cases hdot : '.' ∈ path.toList
    · simp only [List.contains_iff_mem.mpr hdot, if_true, follow_eq_error_iff]
      exact ⟨fun h => ⟨h.1, hget, hdot, h.2⟩, fun h => ⟨h.1, h.2.misnumber⟩⟩
    · have hplain : path.toList.contains '.' = false := by simpa using hdot
      simp only [hplain, Bool.false_eq_true, if_false]
      exact ⟨nofun, fun h => absurd h.2.dotted hdot⟩

end Conveyor.Mapping
