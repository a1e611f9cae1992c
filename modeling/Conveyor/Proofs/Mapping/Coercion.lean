import Conveyor.Mapping.Coercion
import Conveyor.Proofs.Json.RoundTrip
import Conveyor.Proofs.Moment.Iso
import Conveyor.Proofs.Text

/-!
# Coerced values

What coercion makes of a value is in the form of its family (`Family.Holds`), and what is in that form is left
as it is. For documents and moments this says that each family reads what it writes: a document is a text that
can be read, whatever value it was written from, and the texts of dates and moments are those of moments of
the calendar.
-/

namespace Conveyor

namespace Mapping

variable {v w : Value} {m : Moment} {f : Family}

/-! ## Documents -/

/-- What is written as a document is a document. -/
theorem read?_write (h : isWritable v = true) :
    Json.read? (Json.write .plain v) = some (v.reread true) :=
  Json.read?_ofList_writeAt Json.plain_isRegular (v.isReadable_eq.trans h)

/-! ## Moments -/

theorem isBlank_of_isIsoChar {c : Char} (h : Moment.IsIsoChar c) : Text.isBlank c = false := by
  rcases h with hdigit | hmark
  · simp only [Moment.isDigit, Bool.and_eq_true, decide_eq_true_eq] at hdigit
    simp only [Text.isBlank, Text.isSpacing, Text.isInformationSeparator]
    grind
  · simp only [List.mem_cons, List.not_mem_nil, or_false] at hmark
    rcases hmark with rfl | rfl | rfl | rfl | rfl <;> rfl

/-- Text in the characters of dates and times is read as it stands. -/
theorem moment?_text {s : String} (h : ∀ c ∈ s.toList, Moment.IsIsoChar c) :
    moment? (.text s) = Moment.readIso? s.toList := by
  have htrim : Text.trimChars s.toList = s.toList :=
    Text.trimChars_of_blankless fun c hc => isBlank_of_isIsoChar (h c hc)
  have hlast : s.toList.getLast? ≠ some 'Z' := by
    intro hz
    rcases h 'Z' (List.mem_of_getLast? hz) with hdigit | hmark
    · cases hdigit
    · exact absurd hmark (by decide)
  simp only [moment?, Value.text?, Value.isShowable, if_true, Value.displayed, Option.bind_eq_bind,
    Option.bind_some, htrim]

/-- A value denotes moments of the calendar only. -/
theorem isProper_of_moment? (h : moment? v = some m) : m.IsProper := by
  unfold moment? at h
  split at h
  · obtain ⟨micros, -, h⟩ := Option.bind_eq_some_iff.mp h
    exact Moment.isProper_of_ofEpochMicros? h
  · obtain ⟨micros, -, h⟩ := Option.bind_eq_some_iff.mp h
    exact Moment.isProper_of_ofEpochMicros? h
  · obtain ⟨s, -, h⟩ := Option.bind_eq_some_iff.mp h
    dsimp only at h
    split at h
    · exact Moment.isProper_of_readIso? h
    · exact Moment.isProper_of_readIso? h

theorem moment?_isoText (h : m.IsProper) : moment? (.text m.isoText) = some m := by
  rw [moment?_text (Moment.isIsoChar_isoText h), Moment.readIso?_isoText h]

theorem moment?_writeDate (h : m.IsProper) :
    moment? (.text (String.ofList (Moment.writeDate m.date))) =
      some ⟨m.day * Moment.dayMicros, none⟩ := by
  have hchars := Moment.isIsoChar_writeDate h.date_spec.1
  rw [moment?_text (by rwa [String.toList_ofList]), String.toList_ofList, Moment.readIso?_writeDate h]

/-- The start of a day has the date of the day. -/
theorem date_startOfDay (m : Moment) : Moment.date ⟨m.day * Moment.dayMicros, none⟩ = m.date := by
  have hday : Moment.day ⟨m.day * Moment.dayMicros, none⟩ = m.day := by
    show ((m.day : Int) * Moment.dayMicros / Moment.dayMicros).toNat = m.day
    rw [Int.mul_ediv_cancel _ (by decide), Int.toNat_natCast]
  rw [Moment.date, hday, Moment.date]

/-! ## Forms of families -/

/-- The values that the columns of a family take as they are. -/
inductive Family.Holds : Family → Value → Prop
  | string (s : String) : Holds .string (.text s)
  | int (n : Int) : Holds .number (.int n)
  | float (x : Binary64) : Holds .number (.float x)
  | integer (n : Int) : Holds .integer (.int n)
  | boolean (b : Bool) : Holds .boolean (.bool b)
  | json {s : String} {v : Value} (document : Json.read? s = some v) : Holds .json (.text s)
  | date {m : Moment} (proper : m.IsProper) :
      Holds .date (.text (String.ofList (Moment.writeDate m.date)))
  | datetime {m : Moment} (proper : m.IsProper) : Holds .datetime (.text m.isoText)

theorem holds_of_toNumber? (h : toNumber? v = some w) : Family.number.Holds w := by
  unfold toNumber? at h
  split at h
  · cases h
  · cases h
    exact .int _
  · cases h
    exact .float _
  · obtain ⟨s, -, h⟩ := Option.bind_eq_some_iff.mp h
    split at h
    · cases h
      exact .int _
    · obtain ⟨x, -, rfl⟩ := Option.map_eq_some_iff.mp h
      exact .float x

/-- A text that is made a document was one, and any other value is written as one. -/
theorem read?_of_toDocument? {s : String} (h : toDocument? v = some s) :
    ∃ document, Json.read? s = some document := by
  unfold toDocument? at h
  split at h
  · split at h
    · rename_i hread
      cases h
      exact Option.isSome_iff_exists.mp hread
    · cases h
  · split at h
    · rename_i hwritable
      cases h
      exact ⟨_, read?_write hwritable⟩
    · cases h

/-- What coercion gives is in the form of the family. -/
theorem holds_of_coerceTo? (h : coerceTo? f v = some w) : f.Holds w := by
  cases f with
  | string =>
    obtain ⟨s, -, rfl⟩ := Option.map_eq_some_iff.mp h
    exact .string s
  | number => exact holds_of_toNumber? h
  | integer =>
    obtain ⟨n, -, rfl⟩ := Option.map_eq_some_iff.mp h
    exact .integer n
  | boolean =>
    obtain ⟨b, -, rfl⟩ := Option.map_eq_some_iff.mp h
    exact .boolean b
  | json =>
    obtain ⟨s, hs, rfl⟩ := Option.map_eq_some_iff.mp h
    obtain ⟨document, hdocument⟩ := read?_of_toDocument? hs
    exact .json hdocument
  | date =>
    obtain ⟨m, hm, rfl⟩ := Option.map_eq_some_iff.mp h
    exact .date (isProper_of_moment? hm)
  | datetime =>
    obtain ⟨m, hm, rfl⟩ := Option.map_eq_some_iff.mp h
    exact .datetime (isProper_of_moment? hm)

/-- What is in the form of a family stays as it is. -/
theorem Family.Holds.coerceTo? (h : f.Holds w) : coerceTo? f w = some w := by
  cases h with
  | string | int | float | integer | boolean => rfl
  | json document =>
    simp [Mapping.coerceTo?, toDocument?, document]
  | date proper => rw [Mapping.coerceTo?, moment?_writeDate proper, Option.map_some, date_startOfDay]
  | datetime proper => rw [Mapping.coerceTo?, moment?_isoText proper, Option.map_some]

/-! ## Coercion -/

/-- A value that was made to fit a data type fits it, and is not changed again. -/
theorem coerce_again {type : Option String} {field : String} (h : coerce v type field = .ok w)
    (again : String) : coerce w type again = .ok w := by
  unfold coerce at h ⊢
  cases type with
  | none => rfl
  | some name =>
    dsimp only at h ⊢
    cases hfamily : family? name with
    | none => rfl
    | some family =>
      rw [hfamily] at h
      dsimp only at h ⊢
      cases hw : coerceTo? family v with
      | none =>
        rw [hw] at h
        cases h
      | some made =>
        rw [hw] at h
        cases h
        rw [(holds_of_coerceTo? hw).coerceTo?]

/-- A list that holds a NaN is a document, and a time with an odd offset a moment: their texts fit their types
as they are. -/
theorem oddities_coerced_again :
    coerce (.list [.float .nan, .list [.null]]) (some "JSONB") "extra" = .ok (.text "[NaN, [null]]") ∧
      coerce (.text "[NaN, [null]]") (some "JSONB") "extra" = .ok (.text "[NaN, [null]]") ∧
      coerce (.text " 0987-06-05T04:32:10,5-03:30:15.25 ") (some "timestamp (6)") "at" =
        .ok (.text "0987-06-05T04:32:10.500000-03:30:15.250000") ∧
      coerce (.text "0987-06-05T04:32:10.500000-03:30:15.250000") (some "timestamp (6)") "at" =
        .ok (.text "0987-06-05T04:32:10.500000-03:30:15.250000") := by
  have hdocument : coerce (.list [.float .nan, .list [.null]]) (some "JSONB") "extra" =
      .ok (.text "[NaN, [null]]") := by rfl
  have hmoment : coerce (.text " 0987-06-05T04:32:10,5-03:30:15.25 ") (some "timestamp (6)") "at" =
      .ok (.text "0987-06-05T04:32:10.500000-03:30:15.250000") := by rfl
  exact ⟨hdocument, coerce_again hdocument _, hmoment, coerce_again hmoment _⟩

end Mapping
end Conveyor
