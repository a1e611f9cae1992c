import Conveyor.Proofs.Json.Escape
import Conveyor.Proofs.Json.Numeral
import Conveyor.Proofs.Keyed

/-!
# Documents of values

The document of a value can be read in every style that puts nothing but blanks between its items, unless
an integer is too long or an object sealed (`isReadable`). What is read differs from the value where the
document cannot hold it (`reread`). Values that it does hold are named by `isLegible`, and by `isPortable`
if it has no words for numbers. Apart from what cannot be read, a document loses only the first of two
values of one name and which NaN it is (`isRegular`).
-/

namespace Conveyor

namespace Value

mutual

/-- Whether a document can hold the value and give it back: its doubles are finite, its integers
are short enough to be read, no name occurs twice in an object, and no object is sealed. -/
def isPortable : Value → Bool
  | .int n => (decimalDigits n.natAbs).length ≤ Json.maxDigits
  | .float x => x.isFinite
  | .list items => listIsPortable items
  | .object fs => decide (Keyed.keys fs).Nodup && fieldsArePortable fs
  | .sealed _ => false
  | _ => true

def listIsPortable : List Value → Bool
  | [] => true
  | v :: rest => isPortable v && listIsPortable rest

def fieldsArePortable : List (String × Value) → Bool
  | [] => true
  | (_, v) :: rest => isPortable v && fieldsArePortable rest

end

mutual

/-- The same of a document that writes infinities and NaN as words, if it does, and so can hold
them; a NaN is read as one of its forms. -/
def isLegible (words : Bool) : Value → Bool
  | .int n => (decimalDigits n.natAbs).length ≤ Json.maxDigits
  | .float x => x.isFinite || words && (x.isInfinite || x = .nan)
  | .list items => listIsLegible words items
  | .object fs => decide (Keyed.keys fs).Nodup && fieldsAreLegible words fs
  | .sealed _ => false
  | _ => true

def listIsLegible (words : Bool) : List Value → Bool
  | [] => true
  | v :: rest => isLegible words v && listIsLegible words rest

def fieldsAreLegible (words : Bool) : List (String × Value) → Bool
  | [] => true
  | (_, v) :: rest => isLegible words v && fieldsAreLegible words rest

end

mutual

/-- Portable values are those that need no words. -/
theorem isPortable_eq : ∀ v : Value, v.isPortable = v.isLegible false
  | .list items => by rw [isPortable, isLegible, listIsPortable_eq items]
  | .object fs => by rw [isPortable, isLegible, fieldsArePortable_eq fs]
  | .float x => by rw [isPortable, isLegible, Bool.false_and, Bool.or_false]
  | .null | .bool _ | .int _ | .text _ | .sealed _ => rfl

theorem listIsPortable_eq : ∀ items : List Value, listIsPortable items = listIsLegible false items
  | [] => rfl
  | v :: rest => by rw [listIsPortable, listIsLegible, isPortable_eq v, listIsPortable_eq rest]

theorem fieldsArePortable_eq : ∀ fs : List (String × Value),
    fieldsArePortable fs = fieldsAreLegible false fs
  | [] => rfl
  | (k, v) :: rest => by
    rw [fieldsArePortable, fieldsAreLegible, isPortable_eq v, fieldsArePortable_eq rest]

end

mutual

/-- Whether the document of a value can be read: its integers are short enough, and no object is sealed. -/
def isReadable : Value → Bool
  | .int n => (decimalDigits n.natAbs).length ≤ Json.maxDigits
  | .list items => listIsReadable items
  | .object fs => fieldsAreReadable fs
  | .sealed _ => false
  | _ => true

def listIsReadable : List Value → Bool
  | [] => true
  | v :: rest => isReadable v && listIsReadable rest

def fieldsAreReadable : List (String × Value) → Bool
  | [] => true
  | (_, v) :: rest => isReadable v && fieldsAreReadable rest

end

mutual

/-- Whether a document can tell the value from all others: no name occurs twice in an object, and a NaN has
the one form that is read. -/
def isRegular : Value → Bool
  | .float x => !x.isNan || x = .nan
  | .list items => listIsRegular items
  | .object fs => decide (Keyed.keys fs).Nodup && fieldsAreRegular fs
  | _ => true

def listIsRegular : List Value → Bool
  | [] => true
  | v :: rest => isRegular v && listIsRegular rest

def fieldsAreRegular : List (String × Value) → Bool
  | [] => true
  | (_, v) :: rest => isRegular v && fieldsAreRegular rest

end

mutual

/-- What the document of a value is read as. It has one word for every NaN, if it has words for doubles that
are not finite, and else holds null in their place; and of fields of one name the last is read. -/
def reread (words : Bool) : Value → Value
  | .float x =>
    if x.isFinite then .float x
    else if words then .float (if x.isNan then .nan else x)
    else .null
  | .list items => .list (rereadItems words items)
  | .object fs => .object (Keyed.ofPairs (rereadFields words fs))
  | v => v

def rereadItems (words : Bool) : List Value → List Value
  | [] => []
  | v :: rest => reread words v :: rereadItems words rest

def rereadFields (words : Bool) : List (String × Value) → List (String × Value)
  | [] => []
  | (k, v) :: rest => (k, reread words v) :: rereadFields words rest

end

mutual

theorem isReadable_of_isLegible {words : Bool} : ∀ {v : Value}, v.isLegible words = true →
    v.isReadable = true
  | .list items, h => listIsReadable_of_listIsLegible items h
  | .object fs, h => fieldsAreReadable_of_fieldsAreLegible fs ((Bool.and_eq_true _ _).mp h).2
  | .int _, h => h
  | .sealed _, h => h
  | .null, _ | .bool _, _ | .float _, _ | .text _, _ => rfl

theorem listIsReadable_of_listIsLegible {words : Bool} : ∀ items : List Value,
    listIsLegible words items = true → listIsReadable items = true
  | [], _ => rfl
  | v :: rest, h => by
    rw [listIsLegible, Bool.and_eq_true] at h
    rw [listIsReadable, isReadable_of_isLegible h.1, listIsReadable_of_listIsLegible rest h.2]
    rfl

theorem fieldsAreReadable_of_fieldsAreLegible {words : Bool} : ∀ fs : List (String × Value),
    fieldsAreLegible words fs = true → fieldsAreReadable fs = true
  | [], _ => rfl
  | (k, v) :: rest, h => by
    rw [fieldsAreLegible, Bool.and_eq_true] at h
    rw [fieldsAreReadable, isReadable_of_isLegible h.1, fieldsAreReadable_of_fieldsAreLegible rest h.2]
    rfl

end

mutual

/-- The document of a value can be read exactly if the value can be shown and has nothing sealed in it. -/
theorem isReadable_eq : ∀ v : Value, v.isReadable = (v.isShowable && !v.holdsSealed)
  | .int n => by
    have hunsealed : ((Value.int n).isShowable && !(Value.int n).holdsSealed) =
        (Value.int n).isShowable := Bool.and_true _
    rw [hunsealed, isReadable, isShowable, decide_eq_decide, decimalDigits_eq,
      show Json.maxDigits = 4300 from rfl]
    exact Nat.length_toDigits_le_iff (k := 4300) (by decide) (by decide)
  | .list items => listIsReadable_eq items
  | .object fs => fieldsAreReadable_eq fs
  | .sealed fs => by simp [isReadable, holdsSealed]
  | .null | .bool _ | .float _ | .text _ => rfl

theorem listIsReadable_eq : ∀ items : List Value,
    listIsReadable items = (itemsAreShowable items && !listHoldsSealed items)
  | [] => rfl
  | v :: rest => by
    rw [listIsReadable, itemsAreShowable, listHoldsSealed, isReadable_eq v, listIsReadable_eq rest]
    cases v.isShowable <;> cases v.holdsSealed <;> simp

theorem fieldsAreReadable_eq : ∀ fs : List (String × Value),
    fieldsAreReadable fs = (fieldsAreShowable fs && !fieldsHoldSealed fs)
  | [] => rfl
  | (k, v) :: rest => by
    rw [fieldsAreReadable, fieldsAreShowable, fieldsHoldSealed, isReadable_eq v,
      fieldsAreReadable_eq rest]
    cases v.isShowable <;> cases v.holdsSealed <;> simp

end

mutual

/-- Legible are the regular values that have a document. -/
theorem isLegible_eq : ∀ v : Value, v.isLegible true = (v.isRegular && v.isReadable)
  | .float x => by
    have hwhole : (x.isFinite || x.isInfinite) = !x.isNan := by
      rw [Binary64.isFinite, Binary64.isInfinite, Binary64.isNan]
      by_cases hexponent : x.exponent.val = 2047 <;> simp [hexponent]
    rw [isLegible, isRegular, Bool.true_and, ← Bool.or_assoc, hwhole]
    exact (Bool.and_true _).symm
  | .list items => by rw [isLegible, isRegular, isReadable, listIsLegible_eq items]
  | .object fs => by rw [isLegible, isRegular, isReadable, fieldsAreLegible_eq fs, Bool.and_assoc]
  | .int _ => (Bool.true_and _).symm
  | .null | .bool _ | .text _ | .sealed _ => rfl

theorem listIsLegible_eq : ∀ items : List Value,
    listIsLegible true items = (listIsRegular items && listIsReadable items)
  | [] => rfl
  | v :: rest => by
    rw [listIsLegible, listIsRegular, listIsReadable, isLegible_eq v, listIsLegible_eq rest]
    ac_rfl

theorem fieldsAreLegible_eq : ∀ fs : List (String × Value),
    fieldsAreLegible true fs = (fieldsAreRegular fs && fieldsAreReadable fs)
  | [] => rfl
  | (k, v) :: rest => by
    rw [fieldsAreLegible, fieldsAreRegular, fieldsAreReadable, isLegible_eq v,
      fieldsAreLegible_eq rest]
    ac_rfl

end

mutual

/-- A legible value is read as itself. -/
theorem reread_of_isLegible {words : Bool} : ∀ {v : Value}, v.isLegible words = true →
    v.reread words = v
  | .float x, h => by
    rw [isLegible, Bool.or_eq_true, Bool.and_eq_true, Bool.or_eq_true, decide_eq_true_eq] at h
    rw [reread]
    by_cases hfinite : x.isFinite = true
    · rw [if_pos hfinite]
    · obtain ⟨hwords, hx⟩ := h.resolve_left hfinite
      rw [if_neg hfinite, if_pos hwords]
      by_cases hnan : x.isNan = true
      · -- an infinity has no fraction and is no NaN
        have hinfinite : x.isInfinite ≠ true := by
          intro hinfinite
          simp only [Binary64.isNan, Binary64.isInfinite, Bool.and_eq_true, decide_eq_true_eq]
            at hnan hinfinite
          exact hnan.2 hinfinite.2
        rw [if_pos hnan, hx.resolve_left hinfinite]
      · rw [if_neg hnan]
  | .list items, h => by rw [reread, rereadItems_of_listIsLegible h]
  | .object fs, h => by
    rw [isLegible, Bool.and_eq_true, decide_eq_true_eq] at h
    rw [reread, rereadFields_of_fieldsAreLegible h.2, Keyed.ofPairs_eq h.1]
  | .null, _ | .bool _, _ | .int _, _ | .text _, _ | .sealed _, _ => rfl

theorem rereadItems_of_listIsLegible {words : Bool} : ∀ {items : List Value},
    listIsLegible words items = true → rereadItems words items = items
  | [], _ => rfl
  | v :: rest, h => by
    rw [listIsLegible, Bool.and_eq_true] at h
    rw [rereadItems, reread_of_isLegible h.1, rereadItems_of_listIsLegible h.2]

theorem rereadFields_of_fieldsAreLegible {words : Bool} : ∀ {fs : List (String × Value)},
    fieldsAreLegible words fs = true → rereadFields words fs = fs
  | [], _ => rfl
  | (k, v) :: rest, h => by
    rw [fieldsAreLegible, Bool.and_eq_true] at h
    rw [rereadFields, reread_of_isLegible h.1, rereadFields_of_fieldsAreLegible h.2]

end

end Value

namespace Json

/-- A separator is its mark and then blanks. -/
structure IsSeparator (mark : Char) (cs : List Char) : Prop where
  start : cs.head? = some mark
  blanks : ∀ c ∈ cs.tail, isGap c = true

/-- The style separates items by commas and names from values by colons. -/
structure Style.IsRegular (st : Style) : Prop where
  item : IsSeparator ',' st.itemSeparator
  key : IsSeparator ':' st.keySeparator

theorem canonical_isRegular : Style.canonical.IsRegular :=
  ⟨⟨rfl, List.forall_mem_nil _⟩, ⟨rfl, List.forall_mem_nil _⟩⟩

theorem plain_isRegular : Style.plain.IsRegular :=
  ⟨⟨rfl, List.forall_mem_singleton.mpr rfl⟩, ⟨rfl, List.forall_mem_singleton.mpr rfl⟩⟩

theorem IsSeparator.eq {mark : Char} {cs : List Char} (h : IsSeparator mark cs) :
    cs = mark :: cs.tail := by
  cases cs with
  | nil => cases h.start
  | cons c cs =>
    obtain rfl := Option.some.inj h.start
    rfl

/-! ## Blanks -/

theorem skipGaps_append {gaps : List Char} (h : ∀ c ∈ gaps, isGap c = true) (cs : List Char) :
    skipGaps (gaps ++ cs) = skipGaps cs := List.dropWhile_append_of_pos h

theorem skipGaps_cons {c : Char} (h : isGap c = false) (cs : List Char) :
    skipGaps (c :: cs) = c :: cs := by
  rw [skipGaps, List.dropWhile_cons, h]
  rfl

theorem lineStart_gaps (st : Style) (depth : Nat) : ∀ c ∈ lineStart st depth, isGap c = true := by
  unfold lineStart
  intro c hc
  split at hc
  · cases hc
  · rcases List.mem_cons.mp hc with rfl | hc
    · rfl
    · rw [List.eq_of_mem_replicate hc]
      rfl

/-- Blanks before a value are passed over. -/
theorem readValue_gaps (d : Dialect) (fuel : Nat) {gaps : List Char}
    (h : ∀ c ∈ gaps, isGap c = true) (cs : List Char) :
    readValue d fuel (gaps ++ cs) = readValue d fuel cs := by
  cases fuel with
  | zero => rfl
  | succ fuel => rw [readValue, readValue, skipGaps_append h]

theorem endsNumeral_cons {c : Char}
    (h : isAsciiDigit c = false ∧ c ≠ '.' ∧ c ≠ 'e' ∧ c ≠ 'E') (cs : List Char) :
    EndsNumeral (c :: cs) := by
  intro c' hc'
  obtain rfl := Option.some.inj hc'
  exact h

theorem endsNumeral_lineStart (st : Style) (depth : Nat) {rest : List Char}
    (h : EndsNumeral rest) : EndsNumeral (lineStart st depth ++ rest) := by
  unfold lineStart
  split
  · exact h
  · exact endsNumeral_cons (by decide) _

/-! ## First characters -/

/-- The character starts a value and is no bracket that closes a container. -/
structure IsStart (c : Char) : Prop where
  gap : isGap c = false
  bracket : c ≠ ']'

theorem isStart_digit {c : Char} (h : isAsciiDigit c = true) : IsStart c := by
  refine ⟨?_, ?_⟩
  · by_contra hgap
    rw [Bool.not_eq_false] at hgap
    simp only [isGap, Bool.or_eq_true, decide_eq_true_eq] at hgap
    rcases hgap with ((rfl | rfl) | rfl) | rfl <;> exact absurd h (by decide)
  · rintro rfl
    exact absurd h (by decide)

theorem NumeralParts.IsRegular.exists_start {p : NumeralParts} (hp : p.IsRegular) :
    ∃ c cs, p.chars = c :: cs ∧ IsStart c ∧ c ≠ '"' ∧ c ≠ '[' ∧ c ≠ '\x7b' := by
  obtain ⟨c, cs, hc, hchars | hchars⟩ := hp.start
  · refine ⟨c, cs, hchars, isStart_digit hc, ?_, ?_, ?_⟩ <;>
    · rintro rfl
      exact absurd hc (by decide)
  · exact ⟨'-', c :: cs, hchars, ⟨by decide, by decide⟩, by decide, by decide, by decide⟩

/-- What starts neither a text nor a container is read as a word or numeral. -/
theorem readValue_plain (d : Dialect) (fuel : Nat) {c : Char} (hgap : isGap c = false)
    (htext : c ≠ '"') (hlist : c ≠ '[') (hobject : c ≠ '\x7b') (cs : List Char) :
    readValue d (fuel + 1) (c :: cs) = readPlain? d (c :: cs) := by
  rw [readValue, skipGaps_cons hgap]
  split
  · rename_i h
    cases h
  · rename_i h
    exact absurd (List.cons.inj h).1 htext
  · rename_i h
    exact absurd (List.cons.inj h).1 hlist
  · rename_i h
    exact absurd (List.cons.inj h).1 hobject
  · rfl

theorem readValue_numeral (d : Dialect) (fuel : Nat) {p : NumeralParts} (hp : p.IsRegular)
    (rest : List Char) :
    readValue d (fuel + 1) (p.chars ++ rest) = readPlain? d (p.chars ++ rest) := by
  obtain ⟨c, cs, hchars, hstart, htext, hlist, hobject⟩ := hp.exists_start
  rw [hchars, List.cons_append]
  exact readValue_plain d fuel hstart.gap htext hlist hobject _

/-! ## Words -/

/-- A legible double is finite, or one for which there is a word. -/
theorem finite_or_word {words : Bool} {x : Binary64}
    (h : (Value.float x).isLegible words = true) :
    x.isFinite = true ∨ words = true ∧ (x = .nan ∨ ∃ negative, x = .infinity negative) := by
  rw [Value.isLegible, Bool.or_eq_true, Bool.and_eq_true, Bool.or_eq_true, decide_eq_true_eq] at h
  refine h.imp_right (And.imp_right fun hx => hx.symm.imp_right fun hinfinite => ?_)
  obtain ⟨negative, exponent, fraction⟩ := x
  simp only [Binary64.isInfinite, Bool.and_eq_true, decide_eq_true_eq] at hinfinite
  obtain ⟨hexponent, hfraction⟩ := hinfinite
  exact ⟨negative, by rw [Binary64.infinity, Binary64.mk.injEq]; exact
    ⟨rfl, Fin.ext hexponent, Fin.ext hfraction⟩⟩

theorem writeFloat_nan {st : Style} (hst : st.words = true) :
    writeFloat st .nan = ['N', 'a', 'N'] := by
  rw [writeFloat, hst]
  simp [show Binary64.nan.isFinite = false by decide, show Binary64.nan.isNan = true by decide]

theorem writeFloat_infinity {st : Style} (hst : st.words = true) (negative : Bool) :
    writeFloat st (.infinity negative) = (if negative then ['-'] else []) ++
      ['I', 'n', 'f', 'i', 'n', 'i', 't', 'y'] := by
  rw [writeFloat, hst]
  cases negative <;> simp [Binary64.infinity, Binary64.isFinite, Binary64.isNan]

/-- A double that is written as a word is read back. -/
theorem readValue_word {d : Dialect} (hd : d ≠ .settings) {st : Style} (hst : st.words = true)
    {x : Binary64} (hx : x = .nan ∨ ∃ negative, x = .infinity negative) (fuel : Nat)
    (rest : List Char) :
    readValue d (fuel + 1) (writeFloat st x ++ rest) = some (.float x, rest) := by
  rcases hx with rfl | ⟨negative, rfl⟩
  · rw [writeFloat_nan hst]
    simp only [List.cons_append, List.nil_append]
    rw [readValue_plain d fuel (by decide) (by decide) (by decide) (by decide)]
    cases d <;> simp [readPlain?, words, afterWord?] at hd ⊢
  · rw [writeFloat_infinity hst]
    cases negative with
    | true =>
      simp only [if_true, List.cons_append, List.nil_append]
      rw [readValue_plain d fuel (by decide) (by decide) (by decide) (by decide)]
      cases d <;> simp [readPlain?, words, afterWord?] at hd ⊢
    | false =>
      simp only [Bool.false_eq_true, if_false, List.cons_append, List.nil_append]
      rw [readValue_plain d fuel (by decide) (by decide) (by decide) (by decide)]
      cases d <;> simp [readPlain?, words, afterWord?] at hd ⊢

/-- Without words a double that is not finite is written as null. -/
theorem writeFloat_null {st : Style} {x : Binary64} (hst : st.words = false)
    (hx : x.isFinite = false) : writeFloat st x = ['n', 'u', 'l', 'l'] := by
  rw [writeFloat, hst, hx]
  simp

/-- With words it is written as the double that it is read as. -/
theorem exists_word {st : Style} {x : Binary64} (hst : st.words = true) (hx : x.isFinite = false) :
    ∃ y, (y = .nan ∨ ∃ negative, y = .infinity negative) ∧ writeFloat st x = writeFloat st y ∧
      (Value.float x).reread st.words = .float y := by
  rw [Value.reread, hx, hst]
  by_cases hnan : x.isNan = true
  · refine ⟨.nan, .inl rfl, ?_, by simp [hnan]⟩
    rw [writeFloat_nan hst, writeFloat, hx, hst, hnan]
    simp
  · obtain ⟨negative, exponent, fraction⟩ := x
    simp only [Binary64.isFinite, decide_eq_false_iff_not, ne_eq, not_not] at hx
    have hfraction : fraction.val = 0 := by
      by_contra hne
      simp [Binary64.isNan, hx, hne] at hnan
    obtain rfl : exponent = 2047 := Fin.ext hx
    obtain rfl : fraction = 0 := Fin.ext hfraction
    exact ⟨.infinity negative, .inr ⟨negative, rfl⟩, rfl, rfl⟩

/-- The first character of a written value. -/
theorem exists_start (st : Style) (depth : Nat) {v : Value} (hv : v.isReadable = true) :
    ∃ c cs, writeAt st depth v = c :: cs ∧ IsStart c := by
  cases v with
  | null => exact ⟨_, _, rfl, by decide, by decide⟩
  | bool b =>
    cases b
    · exact ⟨_, _, rfl, by decide, by decide⟩
    · exact ⟨_, _, rfl, by decide, by decide⟩
  | int n =>
    obtain ⟨c, cs, hchars, hstart, -⟩ := (integerParts_regular n).exists_start
    rw [integerParts_chars] at hchars
    exact ⟨c, cs, hchars, hstart⟩
  | float x =>
    rw [writeAt]
    cases hx : x.isFinite with
    | true =>
      obtain ⟨p, hp⟩ := exists_writesDouble st.layout hx
      obtain ⟨c, cs, hchars, hstart, -⟩ := hp.regular.exists_start
      rw [hp.chars] at hchars
      refine ⟨c, cs, ?_, hstart⟩
      rw [writeFloat, if_pos hx, hchars]
    | false =>
      cases hst : st.words with
      | false =>
        rw [writeFloat_null hst hx]
        exact ⟨_, _, rfl, by decide, by decide⟩
      | true =>
        obtain ⟨y, rfl | ⟨negative, rfl⟩, hwritten, -⟩ := exists_word hst hx
        · rw [hwritten, writeFloat_nan hst]
          exact ⟨_, _, rfl, by decide, by decide⟩
        · rw [hwritten, writeFloat_infinity hst]
          cases negative <;> exact ⟨_, _, rfl, by decide, by decide⟩
  | text s => exact ⟨_, _, rfl, by decide, by decide⟩
  | list items => cases items <;> exact ⟨_, _, rfl, by decide, by decide⟩
  | object fs => cases fs <;> exact ⟨_, _, rfl, by decide, by decide⟩
  | sealed fs => cases hv

theorem one_le_length_writeAt (st : Style) (depth : Nat) {v : Value} (hv : v.isReadable = true) :
    1 ≤ (writeAt st depth v).length := by
  obtain ⟨c, cs, hchars, -⟩ := exists_start st depth hv
  rw [hchars, List.length_cons]
  exact Nat.le_add_left 1 _

/-! ## Reading back -/

variable {d : Dialect} {st : Style}

theorem readFields_gaps (fuel : Nat) {gaps : List Char} (h : ∀ c ∈ gaps, isGap c = true)
    (cs : List Char) : readFields d fuel (gaps ++ cs) = readFields d fuel cs := by
  cases fuel with
  | zero => rfl
  | succ fuel => rw [readFields, readFields, skipGaps_append h]

theorem endsNumeral_items (hst : st.IsRegular) (depth outer : Nat) (items : List Value)
    (tail : List Char) :
    EndsNumeral (writeItems st depth items ++ (lineStart st outer ++ ']' :: tail)) := by
  cases items with
  | nil => exact endsNumeral_lineStart st outer (endsNumeral_cons (by decide) _)
  | cons v items =>
    rw [writeItems, hst.item.eq]
    exact endsNumeral_cons (by decide) _

theorem endsNumeral_fields (hst : st.IsRegular) (depth outer : Nat) (fs : List (String × Value))
    (tail : List Char) :
    EndsNumeral (writeFields st depth fs ++ (lineStart st outer ++ '\x7d' :: tail)) := by
  cases fs with
  | nil => exact endsNumeral_lineStart st outer (endsNumeral_cons (by decide) _)
  | cons f fs =>
    rw [writeFields, hst.item.eq]
    exact endsNumeral_cons (by decide) _

theorem readValue_text (fuel : Nat) (s : String) (rest : List Char) :
    readValue d (fuel + 1) (writeText st.ascii s ++ rest) = some (.text s, rest) := by
  rw [writeText, List.cons_append, List.append_assoc, List.singleton_append, readValue,
    skipGaps_cons (by decide)]
  simp only [readText?_writeText, Option.map_some]

/-- A list is read as its items, the first of which does not close it. -/
theorem readValue_list {v : Value} {items read : List Value} {depth fuel : Nat} {rest : List Char}
    (hv : v.isReadable = true)
    (h : readItems d fuel (writeAt st (depth + 1) v ++ (writeItems st (depth + 1) items ++
      (lineStart st depth ++ ']' :: rest))) = some (read, rest)) :
    readValue d (fuel + 1) (writeAt st depth (.list (v :: items)) ++ rest) =
      some (.list read, rest) := by
  obtain ⟨c, cs, hchars, hstart⟩ := exists_start st (depth + 1) hv
  rw [writeAt, readValue]
  simp only [List.cons_append, List.append_assoc, List.nil_append,
    skipGaps_cons (show isGap '[' = false by decide),
    skipGaps_append (lineStart_gaps st (depth + 1))]
  rw [hchars, List.cons_append] at h ⊢
  rw [skipGaps_cons hstart.gap]
  split
  · rename_i hclosed
    exact absurd (List.cons.inj hclosed).1 hstart.bracket
  · rw [h]
    rfl

/-- An object is read as its fields; a name begins with a quotation mark and does not close it. -/
theorem readValue_object {k : String} {v : Value} {fs read : Fields} {depth fuel : Nat}
    {rest : List Char}
    (h : readFields d fuel (writeText st.ascii k ++ (st.keySeparator ++
      (writeAt st (depth + 1) v ++ (writeFields st (depth + 1) fs ++
        (lineStart st depth ++ '\x7d' :: rest))))) = some (read, rest)) :
    readValue d (fuel + 1) (writeAt st depth (.object ((k, v) :: fs)) ++ rest) =
      some (.object (Keyed.ofPairs read), rest) := by
  rw [writeAt, writeField, readValue]
  simp only [List.cons_append, List.append_assoc, List.nil_append,
    skipGaps_cons (show isGap '\x7b' = false by decide),
    skipGaps_append (lineStart_gaps st (depth + 1))]
  rw [writeText, List.cons_append] at h ⊢
  rw [skipGaps_cons (by decide)]
  split
  · rename_i hclosed
    exact absurd (List.cons.inj hclosed).1 (by decide)
  · rw [h]
    rfl

theorem readValue_null (fuel : Nat) (rest : List Char) :
    readValue d (fuel + 1) (['n', 'u', 'l', 'l'] ++ rest) = some (.null, rest) := by
  simp only [List.cons_append, List.nil_append]
  rw [readValue_plain d fuel (by decide) (by decide) (by decide) (by decide)]
  simp [readPlain?, words, afterWord?]

/-- A double is read back, or what stands for it in the document. -/
theorem readValue_writeFloat (hd : d ≠ .settings) (st : Style) (x : Binary64) (fuel : Nat)
    {rest : List Char} (hrest : EndsNumeral rest) :
    readValue d (fuel + 1) (writeFloat st x ++ rest) =
      some ((Value.float x).reread st.words, rest) := by
  cases hx : x.isFinite with
  | true =>
    obtain ⟨p, hp⟩ := exists_writesDouble st.layout hx
    rw [writeFloat, if_pos hx, ← hp.chars, readValue_numeral d fuel hp.regular, hp.chars,
      readPlain?_writeFinite hd st.layout hx hrest, Value.reread, if_pos hx]
  | false =>
    cases hst : st.words with
    | false =>
      rw [writeFloat_null hst hx, readValue_null, Value.reread, hx]
      rfl
    | true =>
      obtain ⟨y, hy, hwritten, hread⟩ := exists_word hst hx
      rw [hwritten, readValue_word hd hst hy, ← hread, hst]

-- The induction is on the value. The text that is left is at least as long as the fuel has to be,
-- and an item takes one unit of fuel for itself and one for being gone on from.
mutual

/-- A value is read back from what it is written as, as far as a document holds it. -/
theorem readValue_writeAt (hd : d ≠ .settings) (hst : st.IsRegular) :
    ∀ (v : Value) (depth fuel : Nat) (rest : List Char), v.isReadable = true →
      (writeAt st depth v).length ≤ fuel → EndsNumeral rest →
      readValue d fuel (writeAt st depth v ++ rest) = some (v.reread st.words, rest)
  | v, depth, 0, rest, hv, hfuel, _ => by
    obtain ⟨c, cs, hstart, -⟩ := exists_start st depth hv
    rw [hstart] at hfuel
    exact absurd hfuel (Nat.not_succ_le_zero _)
  | .null, depth, fuel + 1, rest, _, _, _ => by
    rw [writeAt, show "null".toList = ['n', 'u', 'l', 'l'] by simp, readValue_null]
    rfl
  | .bool true, depth, fuel + 1, rest, _, _, _ => by
    rw [writeAt, if_pos rfl, show "true".toList = ['t', 'r', 'u', 'e'] by simp]
    simp only [List.cons_append, List.nil_append]
    rw [readValue_plain d fuel (by decide) (by decide) (by decide) (by decide)]
    simp [readPlain?, words, afterWord?, Value.reread]
  | .bool false, depth, fuel + 1, rest, _, _, _ => by
    rw [writeAt, if_neg Bool.false_ne_true, show "false".toList = ['f', 'a', 'l', 's', 'e'] by simp]
    simp only [List.cons_append, List.nil_append]
    rw [readValue_plain d fuel (by decide) (by decide) (by decide) (by decide)]
    simp [readPlain?, words, afterWord?, Value.reread]
  | .int n, depth, fuel + 1, rest, hv, _, hrest => by
    rw [Value.isReadable, decide_eq_true_eq] at hv
    rw [writeAt, ← integerParts_chars, readValue_numeral d fuel (integerParts_regular n),
      integerParts_chars, readPlain?_decimalText d hv hrest]
    rfl
  | .float x, depth, fuel + 1, rest, _, _, hrest => by
    rw [writeAt, readValue_writeFloat hd st x fuel hrest]
  | .text s, depth, fuel + 1, rest, _, _, _ => by
    rw [writeAt, readValue_text]
    rfl
  | .list [], depth, fuel + 1, rest, _, _, _ => by
    rw [writeAt, readValue]
    rfl
  | .list (v :: items), depth, fuel + 1, rest, hv, hfuel, _ => by
    rw [Value.isReadable, Value.listIsReadable, Bool.and_eq_true] at hv
    obtain ⟨hv, hitems⟩ := hv
    have hlength := one_le_length_writeAt st (depth + 1) hv
    rw [writeAt] at hfuel
    simp only [List.length_append, List.length_cons] at hfuel
    obtain ⟨fuel, rfl⟩ : ∃ f, fuel = f + 1 := ⟨fuel - 1, by omega⟩
    have hvalue := readValue_writeAt hd hst v (depth + 1) fuel
      (writeItems st (depth + 1) items ++ (lineStart st depth ++ ']' :: rest)) hv (by omega)
      (endsNumeral_items hst (depth + 1) depth items rest)
    exact readValue_list hv (readItems_writeItems hd hst items (depth + 1) depth fuel _ rest _
      hitems (by omega) hvalue)
  | .object [], depth, fuel + 1, rest, _, _, _ => by
    rw [writeAt, readValue]
    rfl
  | .object ((k, v) :: fs), depth, fuel + 1, rest, hv, hfuel, _ => by
    rw [Value.isReadable, Value.fieldsAreReadable, Bool.and_eq_true] at hv
    obtain ⟨hv, hfs⟩ := hv
    rw [writeAt, writeField] at hfuel
    simp only [List.length_append, List.length_cons] at hfuel
    obtain ⟨fuel, rfl⟩ : ∃ f, fuel = f + 1 := ⟨fuel - 1, by omega⟩
    have hvalue := readValue_writeAt hd hst v (depth + 1) fuel
      (writeFields st (depth + 1) fs ++ (lineStart st depth ++ '\x7d' :: rest)) hv (by omega)
      (endsNumeral_fields hst (depth + 1) depth fs rest)
    exact readValue_object (readFields_writeFields hd hst fs (depth + 1) depth fuel k _ rest _
      hfs (by omega) hvalue)
  | .sealed fs, depth, fuel + 1, rest, hv, _, _ => by cases hv

/-- After one item, the others are read back up to the end of the list. -/
theorem readItems_writeItems (hd : d ≠ .settings) (hst : st.IsRegular) :
    ∀ (items : List Value) (depth outer fuel : Nat) (cs tail : List Char) (v : Value),
      Value.listIsReadable items = true → (writeItems st depth items).length ≤ fuel →
      readValue d fuel cs =
        some (v, writeItems st depth items ++ (lineStart st outer ++ ']' :: tail)) →
      readItems d (fuel + 1) cs = some (v :: Value.rereadItems st.words items, tail)
  | [], depth, outer, fuel, cs, tail, v, _, _, hread => by
    rw [readItems, hread]
    simp only [writeItems, List.nil_append, Option.bind_eq_bind, Option.bind_some,
      skipGaps_append (lineStart_gaps st outer), skipGaps_cons (show isGap ']' = false by decide)]
    rfl
  | v' :: items, depth, outer, fuel, cs, tail, v, hitems, hfuel, hread => by
    rw [Value.listIsReadable, Bool.and_eq_true] at hitems
    obtain ⟨hv, hrest⟩ := hitems
    rw [writeItems, hst.item.eq] at hread hfuel
    simp only [List.length_append, List.length_cons] at hfuel
    obtain ⟨fuel, rfl⟩ : ∃ f, fuel = f + 1 := ⟨fuel - 1, by omega⟩
    have hvalue := readValue_writeAt hd hst v' depth fuel
      (writeItems st depth items ++ (lineStart st outer ++ ']' :: tail)) hv (by omega)
      (endsNumeral_items hst depth outer items tail)
    rw [← readValue_gaps d fuel (lineStart_gaps st depth), ← readValue_gaps d fuel hst.item.blanks]
      at hvalue
    have hmore :=
      readItems_writeItems hd hst items depth outer fuel _ tail _ hrest (by omega) hvalue
    rw [readItems, hread]
    simp only [List.cons_append, List.append_assoc, Option.bind_eq_bind, Option.bind_some,
      skipGaps_cons (show isGap ',' = false by decide)]
    rw [hmore]
    rfl

/-- After the value of one field, the other fields are read back up to the end of the object. -/
theorem readFields_writeFields (hd : d ≠ .settings) (hst : st.IsRegular) :
    ∀ (fs : List (String × Value)) (depth outer fuel : Nat) (k : String) (cs tail : List Char)
      (v : Value),
      Value.fieldsAreReadable fs = true → (writeFields st depth fs).length ≤ fuel →
      readValue d fuel cs =
        some (v, writeFields st depth fs ++ (lineStart st outer ++ '\x7d' :: tail)) →
      readFields d (fuel + 1) (writeText st.ascii k ++ (st.keySeparator ++ cs)) =
        some ((k, v) :: Value.rereadFields st.words fs, tail)
  | [], depth, outer, fuel, k, cs, tail, v, _, _, hread => by
    rw [← readValue_gaps d fuel hst.key.blanks] at hread
    rw [writeText, hst.key.eq, readFields, List.cons_append, skipGaps_cons (by decide)]
    simp only [List.append_assoc, readText?_writeText, Option.bind_eq_bind,
      Option.bind_some, List.cons_append, skipGaps_cons (show isGap ':' = false by decide), hread,
      writeFields, List.nil_append, skipGaps_append (lineStart_gaps st outer),
      skipGaps_cons (show isGap '\x7d' = false by decide)]
    rfl
  | (k', v') :: fs, depth, outer, fuel, k, cs, tail, v, hfs, hfuel, hread => by
    rw [Value.fieldsAreReadable, Bool.and_eq_true] at hfs
    obtain ⟨hv, hrest⟩ := hfs
    rw [writeFields, writeField, hst.item.eq] at hread hfuel
    simp only [List.length_append, List.length_cons] at hfuel
    obtain ⟨fuel, rfl⟩ : ∃ f, fuel = f + 1 := ⟨fuel - 1, by omega⟩
    have hvalue := readValue_writeAt hd hst v' depth fuel
      (writeFields st depth fs ++ (lineStart st outer ++ '\x7d' :: tail)) hv (by omega)
      (endsNumeral_fields hst depth outer fs tail)
    have hmore := readFields_writeFields hd hst fs depth outer fuel k' _ tail _ hrest (by omega)
      hvalue
    rw [← readFields_gaps (fuel + 1) (lineStart_gaps st depth),
      ← readFields_gaps (fuel + 1) hst.item.blanks] at hmore
    rw [← readValue_gaps d (fuel + 1) hst.key.blanks] at hread
    rw [writeText, hst.key.eq, readFields, List.cons_append, skipGaps_cons (by decide)]
    simp only [List.append_assoc, readText?_writeText, Option.bind_eq_bind, Option.bind_some,
      List.cons_append, List.nil_append, skipGaps_cons (show isGap ':' = false by decide), hread,
      skipGaps_cons (show isGap ',' = false by decide)]
    rw [hmore]
    rfl

end

/-- What the text of a whole document is read as. -/
theorem read?_ofList_writeAt {st : Style} (hst : st.IsRegular) {v : Value}
    (hv : v.isReadable = true) :
    read? (String.ofList (writeAt st 0 v)) = some (v.reread st.words) := by
  have hread := readValue_writeAt (d := .lenient) (by decide) hst v 0
    ((writeAt st 0 v).length + 2) [] hv (by omega) endsNumeral_nil
  rw [List.append_nil] at hread
  rw [read?, readWith?, String.toList_ofList]
  simp only [Dialect.isTooDeep, reduceCtorEq, decide_false, Bool.false_and, Bool.false_eq_true,
    if_false, hread]
  rfl

/-- A legible value is read back from the text of a whole document. -/
theorem read?_ofList {st : Style} (hst : st.IsRegular) {v : Value}
    (hv : v.isLegible st.words = true) : read? (String.ofList (writeAt st 0 v)) = some v := by
  rw [read?_ofList_writeAt hst (Value.isReadable_of_isLegible hv), Value.reread_of_isLegible hv]

end Json
end Conveyor
