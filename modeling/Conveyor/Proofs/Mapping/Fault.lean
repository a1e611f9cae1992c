import Conveyor.Proofs.Binary64.Sum
import Conveyor.Proofs.Mapping.Path
import Conveyor.Proofs.Pipeline.Valid

/-!
# Faults of mappings

Resolving valid mappings gives columns or a mapping error, but for four kinds of value or parameter that no
part of mapping announces: a path that misleads, a rounding to a power of ten beyond all decimals, a time that
is a second of no year, and a value that fits its type no more than it can be shown. What a mapping fails with
is said for its parts first, then for a whole list of mappings (`resolve_escapes_iff`).
-/

namespace Conveyor

-- The power `^` is the core library's, whatever else is imported.
attribute [local instance (high)] instPowNat

open Outcome

/-! ## Computations with known faults -/

/-- Apart from mapping errors the computation fails with just these faults. -/
structure Faulty {α : Type} (x : Except Failure α) (P : Fault → Prop) : Prop where
  fault : ∀ f, x = .error (.fault f) ↔ P f
  announced : ∀ e, x = .error e → (∃ m, e = .mapping m) ∨ ∃ f, e = .fault f

namespace Faulty

variable {α β : Type} {x : Except Failure α} {P Q : Fault → Prop}

theorem ok (a : α) : Faulty (.ok a) fun _ => False := ⟨fun _ => ⟨nofun, nofun⟩, nofun⟩

theorem mapping (e : MappingError) : Faulty (.error (.mapping e) : Except Failure α) fun _ => False := by
  refine ⟨fun f => ⟨nofun, nofun⟩, ?_⟩
  rintro _ ⟨⟩
  exact .inl ⟨e, rfl⟩

theorem error (f : Fault) : Faulty (.error (.fault f) : Except Failure α) (f = ·) := by
  refine ⟨fun g => ?_, ?_⟩
  · rw [Except.error.injEq, Failure.fault.injEq]
  · rintro _ ⟨⟩
    exact .inr ⟨f, rfl⟩

theorem congr (h : Faulty x P) (hPQ : ∀ f, P f ↔ Q f) : Faulty x Q :=
  ⟨fun f => (h.fault f).trans (hPQ f), h.announced⟩

theorem bind {k : α → Except Failure β} {Q : α → Fault → Prop} (hx : Faulty x P)
    (hk : ∀ a, x = .ok a → Faulty (k a) (Q a)) :
    Faulty (x >>= k) fun f => P f ∨ ∃ a, x = .ok a ∧ Q a f := by
  refine ⟨fun f => ?_, fun e he => ?_⟩
  · rw [bind_eq_error_iff, hx.fault]
    refine or_congr_right (exists_congr fun a => and_congr_right fun ha => ?_)
    exact (hk a ha).fault f
  · rcases bind_eq_error_iff.mp he with h | ⟨a, ha, h⟩
    · exact hx.announced e h
    · exact (hk a ha).announced e h

theorem map (g : α → β) (hx : Faulty x P) : Faulty (g <$> x) P := by
  refine ⟨fun f => map_eq_error_iff.trans (hx.fault f), fun e he => ?_⟩
  exact hx.announced e (map_eq_error_iff.mp he)

/-- A fault is kept as it is. -/
theorem ofFault {y : Except Fault α} (h : ∀ f, y = .error f ↔ P f) :
    Faulty (y.mapError Failure.fault) P := by
  refine ⟨fun f => ?_, fun e he => ?_⟩
  · rw [mapError_eq_error_iff, ← h f]
    refine ⟨?_, fun hf => ⟨f, hf, rfl⟩⟩
    rintro ⟨g, hg, ⟨⟩⟩
    exact hg
  · obtain ⟨f, -, rfl⟩ := mapError_eq_error_iff.mp he
    exact .inr ⟨f, rfl⟩

/-- Without a fault there is a result or a mapping error. -/
theorem forall_not_iff (h : Faulty x P) :
    (∀ f, ¬ P f) ↔ (∃ a, x = .ok a) ∨ ∃ e, x = .error (.mapping e) := by
  simp only [← h.fault]
  cases hx : x with
  | ok a => simp
  | error e =>
    rcases h.announced e hx with ⟨m, rfl⟩ | ⟨f, rfl⟩ <;> simp

end Faulty

namespace Mapping

/-! ## Moments -/

theorem inRange_eq_false_iff {wall : Int} :
    Moment.inRange wall = false ↔ wall < 0 ∨ Moment.wallLimit ≤ wall := by
  simp only [Moment.inRange, Bool.and_eq_false_iff, decide_eq_false_iff_not, Int.not_le, Int.not_lt]

theorem isYearless_eq_true_iff {second : Int} :
    Moment.isYearless second = true ↔ -Moment.clockLimit ≤ second ∧ second < Moment.clockLimit ∧
      (second < Moment.firstClockSecond ∨ Moment.lastClockSecond < second) := by
  simp only [Moment.isYearless, Bool.and_eq_true, Bool.or_eq_true, decide_eq_true_eq, and_assoc]

/-- A second of no year is far from every moment. -/
theorem inRange_of_isYearless {micros : Int}
    (h : Moment.isYearless (micros / Moment.secondMicros) = true) :
    Moment.inRange (Moment.epochWall + micros) = false := by
  have hfar := (isYearless_eq_true_iff.mp h).2.2
  simp only [Moment.firstClockSecond, Moment.lastClockSecond, Moment.secondMicros] at hfar
  rw [inRange_eq_false_iff, Moment.wallLimit, Moment.epochWall, Moment.dayMicros,
    show (Calendar.dayCount : Int) = 3652059 from rfl]
  omega

theorem ofEpochMicros?_eq_none_iff {micros : Int} :
    Moment.ofEpochMicros? micros = none ↔ Moment.inRange (Moment.epochWall + micros) = false := by
  unfold Moment.ofEpochMicros?
  cases Moment.inRange (Moment.epochWall + micros) <;> simp

theorem moment?_of_isYearless {v : Value} (h : isYearless v = true) : moment? v = none := by
  unfold isYearless at h
  cases hmicros : countedMicros? v with
  | none =>
    rw [hmicros] at h
    cases h
  | some micros =>
    rw [hmicros] at h
    have hnone := ofEpochMicros?_eq_none_iff.mpr (inRange_of_isYearless h)
    cases v with
    | int n => rw [moment?, hmicros, Option.bind_some, hnone]
    | float x => rw [moment?, hmicros, Option.bind_some, hnone]
    | _ => cases hmicros

/-- A count of milliseconds beyond all doubles is no count of seconds. -/
theorem countedMicros?_of_infinite {n : Int} {most : Nat} (h : most ≤ n.natAbs)
    (hinfinite : Binary64.ofRatio false most 1000 = .infinity false) (hn : secondsLimit < n) :
    countedMicros? (.int n) = none := by
  have hmost : 0 < most := by
    refine Nat.pos_of_ne_zero fun hzero => ?_
    rw [hzero] at hinfinite
    exact absurd hinfinite (by decide)
  have habs : n.toNat = n.natAbs := by
    rw [secondsLimit] at hn
    omega
  have hfinite : (Binary64.ofRatio false n.natAbs 1000).isFinite = false :=
    Binary64.isFinite_ofRatio_of_le hmost (by decide) (hmost.trans_le h) (by decide)
      (Nat.mul_le_mul_right _ h) hinfinite
  rw [countedMicros?, if_pos hn, Moment.microsOfSeconds?, habs, hfinite, if_neg Bool.false_ne_true]

/-- So many seconds before 1970 are before all moments, and before all seconds of a clock. -/
theorem countedMicros?_of_negative {n : Int} (h : n ≤ -10 ^ 30) :
    ∃ micros, countedMicros? (.int n) = some micros ∧
      Moment.inRange (Moment.epochWall + micros) = false ∧
        Moment.isYearless (micros / Moment.secondMicros) = false := by
  refine ⟨n * Moment.secondMicros, if_neg ?_, ?_, ?_⟩
  · rw [secondsLimit]
    omega
  · rw [inRange_eq_false_iff, Moment.epochWall, Moment.dayMicros, Moment.secondMicros]
    omega
  · rw [Int.mul_ediv_cancel n (by decide), Bool.eq_false_iff, ne_eq, isYearless_eq_true_iff,
      Moment.clockLimit]
    omega

/-- An integer of more than 4300 digits counts to no moment and to no second of a clock. -/
theorem moment?_of_hidden {v : Value} (h : v.isShowable = false) :
    moment? v = none ∧ isYearless v = false := by
  cases v with
  | null | bool b | float x | text s => cases h
  | list items | object fs | sealed fs =>
    simp [moment?, Value.text?_eq_none_iff.mpr h, isYearless, countedMicros?]
  | int n =>
    have hlarge : 10 ^ 4300 ≤ n.natAbs := by
      rwa [Value.isShowable, decide_eq_false_iff_not, Nat.not_lt] at h
    by_cases hn : secondsLimit < n
    · have hinfinite : Binary64.ofRatio false (10 ^ 4300) 1000 = .infinity false := by decide +kernel
      rw [moment?, isYearless, countedMicros?_of_infinite hlarge hinfinite hn]
      exact ⟨rfl, rfl⟩
    · have hthirty : 10 ^ 30 ≤ n.natAbs :=
        (Nat.pow_le_pow_right (by decide) (by decide)).trans hlarge
      have hnegative : n ≤ -10 ^ 30 := by
        rw [secondsLimit] at hn
        clear h hlarge
        omega
      obtain ⟨micros, hmicros, hbefore, hsecond⟩ := countedMicros?_of_negative hnegative
      rw [moment?, isYearless, hmicros, Option.bind_some, Option.any_some]
      exact ⟨ofEpochMicros?_eq_none_iff.mpr hbefore, hsecond⟩

/-! ## Roundings -/

theorem lastDigit_eq_overflow_iff {places : Int} :
    Decimal.lastDigit places = .error .overflow ↔
      -(Decimal.greatestShift : Int) ≤ places ∧ places < -Decimal.greatestExponent := by
  unfold Decimal.lastDigit Decimal.greatestShift Decimal.greatestExponent
  split
  · simp only [Except.error.injEq, reduceCtorEq, false_iff]
    omega
  · split
    · simp only [true_iff]
      omega
    · simp only [reduceCtorEq, false_iff]
      omega

/-- Only the power of ten to round to can be too large. -/
theorem roundValue_eq_overflow_iff {v : Value} {param : Option String} :
    roundValue v param = .error .overflow ↔
      (∀ b, v ≠ .bool b) ∧ ∃ places, places? param = some places ∧
        Decimal.lastDigit places = .error .overflow := by
  by_cases hbool : ∃ b, v = .bool b
  · obtain ⟨b, rfl⟩ := hbool
    simp [roundValue]
  · have hother : ∀ b, v ≠ .bool b := fun b hb => hbool ⟨b, hb⟩
    cases hplaces : places? param with
    | none => cases v <;> simp [roundValue, hplaces] at hother ⊢
    | some places =>
      cases v with
      | bool b => exact absurd rfl (hother b)
      | null | int n | float x | text s | list items | object fs | sealed fs =>
        unfold roundValue
        rw [hplaces]
        simp only [bind_eq_error_iff]
        constructor
        · rintro (h | ⟨e, -, h⟩)
          · exact ⟨hother, places, rfl, h⟩
          · split at h <;> cases h
        · rintro ⟨-, _, ⟨⟩, h⟩
          exact .inl h

/-! ## Transforms -/

/-- The faults of a transform on a value. -/
inductive Transform.Faults (v : Value) (param : Option String) : Transform → Fault → Prop
  /-- Rounding to so few places would need a power of ten that no decimal has. -/
  | places {places : Int} (number : ∀ b, v ≠ .bool b) (asked : places? param = some places)
      (least : -(Decimal.greatestShift : Int) ≤ places) (few : places < -Decimal.greatestExponent) :
      Faults v param .round .numberRange
  /-- The value counts to a second of no year. -/
  | year (yearless : isYearless v = true) : Faults v param .dateFormat .yearRange

variable {v : Value}

theorem faulty_transformText (t : Transform) (g : String → String) (v : Value) (field : String) :
    Faulty (transformText t g v field) fun _ => False := by
  unfold transformText
  cases v.text? with
  | some s => exact .ok _
  | none => exact .mapping _

theorem faulty_transform (t : Transform) (v : Value) (param : Option String) (field : String) :
    Faulty (transform t v param field) (t.Faults v param) := by
  cases t with
  | uppercase | lowercase | trim | prepend | append =>
    exact (faulty_transformText _ _ v field).congr fun f => ⟨nofun, nofun⟩
  | round =>
    have hfaults : ∀ f, Transform.Faults v param .round f ↔
        f = .numberRange ∧ roundValue v param = .error .overflow := by
      intro f
      simp only [roundValue_eq_overflow_iff, lastDigit_eq_overflow_iff]
      constructor
      · rintro ⟨number, asked, least, few⟩
        exact ⟨rfl, number, _, asked, least, few⟩
      · rintro ⟨rfl, number, _, asked, least, few⟩
        exact .places number asked least few
    unfold transform
    cases hround : roundValue v param with
    | ok w => exact (Faulty.ok w).congr fun f => by simp [hfaults, hround]
    | error e =>
      cases e with
      | impossible => exact (Faulty.mapping _).congr fun f => by simp [hfaults, hround]
      | overflow => exact (Faulty.error .numberRange).congr fun f => by simp [hfaults, hround, eq_comm]
  | dateFormat =>
    have hfaults : ∀ f, Transform.Faults v param .dateFormat f ↔
        f = .yearRange ∧ isYearless v = true := by
      intro f
      constructor
      · intro h
        cases h with
        | year yearless => exact ⟨rfl, yearless⟩
      · rintro ⟨rfl, yearless⟩
        exact .year yearless
    unfold transform
    cases hyear : isYearless v with
    | true =>
      rw [moment?_of_isYearless hyear]
      exact (Faulty.error .yearRange).congr fun f => by simp [hfaults, hyear, eq_comm]
    | false =>
      cases moment? v with
      | some m => exact (Faulty.ok _).congr fun f => by simp [hfaults, hyear]
      | none => exact (Faulty.mapping _).congr fun f => by simp [hfaults, hyear]

/-! ## Types -/

/-- The faults of a family on a value. -/
inductive Family.Faults (v : Value) : Family → Fault → Prop
  /-- The value counts to a second of no year. -/
  | year {f : Family} (temporal : f.isTemporal = true) (yearless : isYearless v = true) :
      Faults v f .yearRange
  /-- The value cannot be shown, and is no integer that is asked for. -/
  | hidden {f : Family} (hidden : v.isShowable = false)
      (other : f = .number ∨ f = .integer → ∀ n, v ≠ .int n) : Faults v f .badValue

/-- A value that cannot be shown fits no family, unless it is an integer that is asked for. -/
theorem coerceTo?_of_hidden {f : Family} (h : v.isShowable = false)
    (other : f = .number ∨ f = .integer → ∀ n, v ≠ .int n) : coerceTo? f v = none := by
  have htext := Value.text?_eq_none_iff.mpr h
  have hmoment := (moment?_of_hidden h).1
  cases v with
  | null | bool b | float x | text s => cases h
  | list items | object fs | sealed fs =>
    cases f <;> simp [coerceTo?, toText?, toNumber?, toInteger?, toBoolean?, toDocument?, isWritable, h,
      htext, hmoment]
  | int n =>
    have hsmall : ∀ k : Int, (Value.int k).isShowable = true → n ≠ k := by
      intro k hk hn
      rw [hn, hk] at h
      cases h
    have hzero := hsmall 0 (by decide +kernel)
    have hone := hsmall 1 (by decide +kernel)
    cases f with
    | number => exact absurd rfl (other (.inl rfl) n)
    | integer => exact absurd rfl (other (.inr rfl) n)
    | string | boolean | json | date | datetime =>
      simp [coerceTo?, toText?, toBoolean?, toDocument?, isWritable, h, htext, hmoment, hzero, hone]

theorem coerceTo?_of_faults {family : Family} {f : Fault} (h : family.Faults v f) :
    coerceTo? family v = none := by
  cases h with
  | hidden hidden other => exact coerceTo?_of_hidden hidden other
  | year temporal yearless =>
    have hmoment := moment?_of_isYearless yearless
    cases family with
    | date | datetime => rw [coerceTo?, hmoment, Option.map_none]
    | string | number | integer | boolean | json => cases temporal

/-- A value that does not fit is refused, unless it is one of those that fault. -/
theorem faulty_unfit {family : Family} (h : coerceTo? family v = none) (dataType field : String) :
    Faulty (.error (unfit family v dataType field) : Except Failure Value) (family.Faults v) := by
  unfold unfit
  by_cases hyear : family.isTemporal = true ∧ isYearless v = true
  · obtain ⟨temporal, yearless⟩ := hyear
    rw [temporal, yearless]
    refine (Faulty.error .yearRange).congr fun f => ⟨?_, fun hf => ?_⟩
    · rintro rfl
      exact .year temporal yearless
    · cases hf with
      | year _ _ => rfl
      | hidden hidden _ =>
        rw [(moment?_of_hidden hidden).2] at yearless
        cases yearless
  · rw [if_neg (by rwa [Bool.and_eq_true])]
    cases hshow : v.isShowable with
    | true =>
      refine (Faulty.mapping _).congr fun f => ⟨nofun, fun hf => ?_⟩
      cases hf with
      | year temporal yearless => exact hyear ⟨temporal, yearless⟩
      | hidden hidden _ =>
        rw [hshow] at hidden
        cases hidden
    | false =>
      have hother : family = .number ∨ family = .integer → ∀ n, v ≠ .int n := by
        rintro (rfl | rfl) n rfl <;> cases h
      refine (Faulty.error .badValue).congr fun f => ⟨?_, fun hf => ?_⟩
      · rintro rfl
        exact .hidden hshow hother
      · cases hf with
        | year temporal yearless => exact absurd ⟨temporal, yearless⟩ hyear
        | hidden _ _ => rfl

/-- The faults of a declared type on a value are those of its family. -/
def TypeFaults (dataType : Option String) (v : Value) (f : Fault) : Prop :=
  ∃ name family, dataType = some name ∧ family? name = some family ∧ family.Faults v f

theorem faulty_coerce (v : Value) (dataType : Option String) (field : String) :
    Faulty (coerce v dataType field) (TypeFaults dataType v) := by
  unfold coerce
  cases dataType with
  | none => exact (Faulty.ok v).congr fun f => by simp [TypeFaults]
  | some name =>
    cases hfamily : family? name with
    | none =>
      simp only [hfamily]
      exact (Faulty.ok v).congr fun f => by simp [TypeFaults, hfamily]
    | some family =>
      have hfaults : ∀ f, TypeFaults (some name) v f ↔ family.Faults v f := by
        intro f
        simp [TypeFaults, hfamily]
      refine Faulty.congr ?_ fun f => (hfaults f).symm
      cases hcoerce : coerceTo? family v with
      | none => simpa only [hfamily, hcoerce] using faulty_unfit hcoerce name field
      | some w =>
        simp only [hfamily, hcoerce]
        refine (Faulty.ok w).congr fun f => ⟨nofun, fun hf => ?_⟩
        rw [coerceTo?_of_faults hf] at hcoerce
        cases hcoerce

/-! ## Mappings -/

/-- What the transform of a mapping, if it has one, makes of a value. -/
def transformed (m : FieldMapping) (v : Value) : Except Failure Value := do
  match ← transformOf m with
  | none => pure v
  | some t => transform t v m.transformParam m.sourceField

theorem convert_eq (m : FieldMapping) (v : Value) :
    convert m v = transformed m v >>= fun w => coerce w m.dataType m.sourceField := by
  unfold convert transformed
  cases transformOf m with
  | error e => rfl
  | ok t? => cases t? <;> rfl

/-- The faults of a mapping on what its record has for the source field. -/
inductive ValueFaults (m : FieldMapping) : Option Value → Fault → Prop
  /-- There is nothing or a null, and the default that stands in for it faults on the type. -/
  | default {found : Option Value} {f : Fault} (missing : found = none ∨ found = some .null)
      (handling : m.nullHandling = .useDefault) (faults : TypeFaults m.dataType m.defaultValue f) :
      ValueFaults m found f
  /-- The transform faults on the value. -/
  | transform {v : Value} {t : Transform} {f : Fault} (present : v ≠ .null)
      (named : transformOf m = .ok (some t)) (faults : t.Faults v m.transformParam f) :
      ValueFaults m (some v) f
  /-- What the transform made of the value faults on the type. -/
  | coercion {v w : Value} {f : Fault} (present : v ≠ .null) (made : transformed m v = .ok w)
      (faults : TypeFaults m.dataType w f) : ValueFaults m (some v) f

/-- A mapping faults on a record: the path to its source field misleads, or what the path leads to is of no
use to it. -/
def Escapes (record : Fields) (m : FieldMapping) (f : Fault) : Prop :=
  (f = .badValue ∧ Misleads record m.sourceField) ∨
    ∃ found, lookup record m.sourceField = .ok found ∧ ValueFaults m found f

section Mappings

variable {record : Fields} {m : FieldMapping} {ms : List FieldMapping} {f : Fault}

theorem faulty_transformed {t? : Option Transform} (h : transformOf m = .ok t?) (v : Value) :
    Faulty (transformed m v) fun f => ∃ t, t? = some t ∧ t.Faults v m.transformParam f := by
  cases t? with
  | none =>
    have hsame : transformed m v = .ok v := by
      rw [transformed, h]
      rfl
    rw [hsame]
    exact (Faulty.ok v).congr fun f => by simp
  | some t =>
    have hsame : transformed m v = transform t v m.transformParam m.sourceField := by
      rw [transformed, h]
      rfl
    rw [hsame]
    exact (faulty_transform t v _ _).congr fun f => by simp

theorem faulty_convert {t? : Option Transform} (h : transformOf m = .ok t?) (v : Value) :
    Faulty (convert m v) fun f => (∃ t, t? = some t ∧ t.Faults v m.transformParam f) ∨
      ∃ w, transformed m v = .ok w ∧ TypeFaults m.dataType w f := by
  rw [convert_eq]
  exact (faulty_transformed h v).bind fun w _ => faulty_coerce w _ _

theorem faulty_fillMissing (m : FieldMapping) :
    Faulty (fillMissing m) fun f =>
      m.nullHandling = .useDefault ∧ TypeFaults m.dataType m.defaultValue f := by
  unfold fillMissing
  cases m.nullHandling with
  | skip => exact (Faulty.ok _).congr fun f => by simp
  | required => exact (Faulty.mapping _).congr fun f => by simp
  | useDefault =>
    by_cases hnull : m.defaultValue.isNull = true
    · simp only [hnull, if_true]
      refine (Faulty.ok _).congr fun f => ⟨nofun, ?_⟩
      rintro ⟨-, _, family, -, -, hf⟩
      cases hvalue : m.defaultValue <;> rw [hvalue] at hnull hf <;> cases hnull
      cases hf with
      | year _ yearless => cases yearless
      | hidden hidden _ => cases hidden
    · simp only [hnull]
      exact ((faulty_coerce _ _ _).map some).congr fun f => by simp

theorem valueFaults_iff_of_missing {found : Option Value} (h : found = none ∨ found = some .null) :
    ValueFaults m found f ↔
      m.nullHandling = .useDefault ∧ TypeFaults m.dataType m.defaultValue f := by
  constructor
  · intro hf
    cases hf with
    | default _ handling faults => exact ⟨handling, faults⟩
    | transform present _ _ => exact absurd (Option.some.inj (h.resolve_left nofun)) present
    | coercion present _ _ => exact absurd (Option.some.inj (h.resolve_left nofun)) present
  · rintro ⟨handling, faults⟩
    exact .default h handling faults

theorem valueFaults_iff_of_present {v : Value} (h : v ≠ .null) : ValueFaults m (some v) f ↔
    (∃ t, transformOf m = .ok (some t) ∧ t.Faults v m.transformParam f) ∨
      ∃ w, transformed m v = .ok w ∧ TypeFaults m.dataType w f := by
  constructor
  · intro hf
    cases hf with
    | default missing _ _ => exact absurd (Option.some.inj (missing.resolve_left nofun)) h
    | transform _ named faults => exact .inl ⟨_, named, faults⟩
    | coercion _ made faults => exact .inr ⟨_, made, faults⟩
  · rintro (⟨t, named, faults⟩ | ⟨w, made, faults⟩)
    · exact .transform h named faults
    · exact .coercion h made faults

/-- A mapping whose transform is known gives its column a value, skips it or fails with a mapping error,
unless it faults. -/
theorem faulty_resolveField (known : ∃ t?, transformOf m = .ok t?) (record : Fields) :
    Faulty (resolveField record m) (Escapes record m) := by
  obtain ⟨t?, ht⟩ := known
  have hmissing {found : Option Value} (h : found = none ∨ found = some .null) :
      Faulty (fillMissing m) (ValueFaults m found) :=
    (faulty_fillMissing m).congr fun f => (valueFaults_iff_of_missing h).symm
  have hpresent {v : Value} (h : v ≠ .null) :
      Faulty (some <$> convert m v) (ValueFaults m (some v)) :=
    ((faulty_convert ht v).map some).congr fun f => by
      simp only [valueFaults_iff_of_present h, ht, Except.ok.injEq]
  have hlookup : Faulty ((lookup record m.sourceField).mapError Failure.fault) fun f =>
      f = .badValue ∧ Misleads record m.sourceField := .ofFault fun f => lookup_eq_error_iff
  unfold resolveField
  refine (hlookup.bind fun found _ => (?_ : Faulty _ (ValueFaults m found))).congr fun f => ?_
  · match found with
    | none => exact hmissing (.inl rfl)
    | some .null => exact hmissing (.inr rfl)
    | some (.bool _) | some (.int _) | some (.float _) | some (.text _) | some (.list _)
    | some (.object _) | some (.sealed _) => exact hpresent nofun
  · simp only [mapError_eq_ok_iff, Escapes]

/-- A record escapes a list of mappings with a fault: a mapping faults, and none before it has failed. -/
def EscapesAll (record : Fields) (ms : List FieldMapping) (f : Fault) : Prop :=
  ∃ before m after, ms = before ++ m :: after ∧
    (∀ b ∈ before, ∃ v, resolveField record b = .ok v) ∧ Escapes record m f

theorem escapesAll_cons_iff : EscapesAll record (m :: ms) f ↔
    Escapes record m f ∨ ∃ v, resolveField record m = .ok v ∧ EscapesAll record ms f := by
  constructor
  · rintro ⟨before, m', after, hms, hbefore, hf⟩
    cases before with
    | nil =>
      cases hms
      exact .inl hf
    | cons b before =>
      cases hms
      obtain ⟨⟨v, hv⟩, hbefore⟩ := List.forall_mem_cons.mp hbefore
      exact .inr ⟨v, hv, before, m', after, rfl, hbefore, hf⟩
  · rintro (hf | ⟨v, hv, before, m', after, rfl, hbefore, hf⟩)
    · exact ⟨[], m, ms, rfl, nofun, hf⟩
    · exact ⟨m :: before, m', after, rfl, List.forall_mem_cons.mpr ⟨⟨v, hv⟩, hbefore⟩, hf⟩

theorem faulty_resolveFrom {seen : List String} (known : ∀ m ∈ ms, ∃ t?, transformOf m = .ok t?)
    (columns : (ms.map (·.destinationColumn)).Nodup)
    (fresh : ∀ m ∈ ms, m.destinationColumn ∉ seen) :
    Faulty (resolveFrom record seen ms) (EscapesAll record ms) := by
  induction ms generalizing seen with
  | nil => exact (Faulty.ok []).congr fun f => by simp [EscapesAll]
  | cons m rest ih =>
    obtain ⟨hknown, hrest⟩ := List.forall_mem_cons.mp known
    obtain ⟨hfresh, hfreshRest⟩ := List.forall_mem_cons.mp fresh
    obtain ⟨hcolumn, hcolumns⟩ := List.nodup_cons.mp columns
    have hnew : ∀ m' ∈ rest, m'.destinationColumn ∉ m.destinationColumn :: seen := by
      intro m' hm'
      rw [List.mem_cons, not_or]
      exact ⟨fun heq => hcolumn (List.mem_map.mpr ⟨m', hm', heq⟩), hfreshRest m' hm'⟩
    unfold resolveFrom
    rw [if_neg (by simpa using hfresh)]
    refine ((faulty_resolveField hknown record).bind fun v _ =>
      ((ih hrest hcolumns hnew).bind fun more _ => .ok _)).congr fun f => ?_
    simp [escapesAll_cons_iff]

theorem exists_transformOf (valid : Validation.ValidMappings ms) (hm : m ∈ ms) :
    ∃ t?, transformOf m = .ok t? := by
  unfold transformOf
  cases hname : m.transformType with
  | none => exact ⟨none, rfl⟩
  | some name =>
    dsimp only
    cases hempty : name.isEmpty with
    | true => exact ⟨none, rfl⟩
    | false =>
      obtain ⟨t, ht⟩ := valid.transforms m hm name hname hempty
      exact ⟨some t, by rw [ht, if_neg Bool.false_ne_true]⟩

theorem faulty_resolve (record : Fields) (valid : Validation.ValidMappings ms) :
    Faulty (resolve record ms) (EscapesAll record ms) :=
  faulty_resolveFrom (fun _ hm => exists_transformOf valid hm) valid.columns fun _ _ => List.not_mem_nil

/-- Mappings that validation accepts give columns or a mapping error exactly if none of them escapes with a
fault, and the faults that a record escapes with are those of the first mapping that fails. -/
theorem resolve_escapes_iff {place : Place} (accepted : Validation.mappingsIssues place ms = [])
    (record : Fields) :
    ((∃ fields, resolve record ms = .ok fields) ∨ (∃ e, resolve record ms = .error (.mapping e)) ↔
        ∀ f, ¬ EscapesAll record ms f) ∧
      ∀ f, resolve record ms = .error (.fault f) ↔ EscapesAll record ms f := by
  have hfaulty := faulty_resolve record (Validation.mappingsIssues_eq_nil_iff.mp accepted)
  exact ⟨hfaulty.forall_not_iff.symm, hfaulty.fault⟩

end Mappings

/-- A temperature in text, rounded to one place, and the time of the second reading. -/
def readings : List FieldMapping :=
  [{ sourceField := "celsius", destinationColumn := "level", dataType := some "number",
     transformType := some "round", transformParam := some "1" },
    { sourceField := "readings.1.at", destinationColumn := "taken_at", dataType := some "timestamp" }]

/-- A record with two readings, the first of them without a value. -/
def twoReadings : Fields :=
  [("celsius", .text "21.46"),
    ("readings", .list [.null, .object [("at", .text "2024-06-01T12:00:00Z")]])]

theorem readings_resolved : Validation.mappingsIssues [] readings = [] ∧
    ∀ f, ¬ EscapesAll twoReadings readings f := by
  have accepted : Validation.mappingsIssues [] readings = [] := by decide +kernel
  exact ⟨accepted, (resolve_escapes_iff accepted _).1.mp (.inl ⟨_, rfl⟩)⟩

/-- A mapping without issues that a record escapes. -/
def SlipsThrough (record : Fields) (m : FieldMapping) (f : Fault) : Prop :=
  Validation.mappingsIssues [] [m] = [] ∧ resolve record [m] = .error (.fault f)

instance (record : Fields) (m : FieldMapping) (f : Fault) : Decidable (SlipsThrough record m f) :=
  inferInstanceAs (Decidable (_ ∧ _))

/-- Four ways to slip through: a position of a list that is written with a raised digit, a rounding to a million
places before the point, a time three thousand million years ahead, and an integer that has too many digits to
become a text. -/
theorem accepted_mappings_escape :
    SlipsThrough [("l", .list [.int 10, .int 20])]
        { sourceField := "l.²", destinationColumn := "c" } .badValue ∧
      SlipsThrough [("n", .text "21.46")]
        { sourceField := "n", destinationColumn := "c", transformType := some "round",
          transformParam := some "-1000000" } .numberRange ∧
      SlipsThrough [("n", .int 100000000000000000000)]
        { sourceField := "n", destinationColumn := "c", transformType := some "date_format" }
        .yearRange ∧
      SlipsThrough [("n", .text "1e5000")]
        { sourceField := "n", destinationColumn := "c", dataType := some "string",
          transformType := some "round", transformParam := some "-5000" } .badValue := by
  decide +kernel

end Mapping
end Conveyor
