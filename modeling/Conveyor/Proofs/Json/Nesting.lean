import Conveyor.Proofs.Json.Canonical
import Conveyor.Proofs.Outcome

/-!
# Nesting

The strict reader counts how many containers are open at once before it reads a text. In the document
of a value that is how many of its containers stand inside each other (`nestingFrom_writeAt`): brackets
in quotes do not count, and an empty container does not open. Whoever writes values of any form has
gone through them before, and not too deep: there every value counts that stands inside others, the
innermost one and empty containers too (`descend_eq_ok_iff`).
-/

namespace Conveyor

namespace Value

mutual

/-- How many containers with items in them stand inside each other in a value. -/
def nesting : Value → Nat
  | .list items => if items.isEmpty then 0 else 1 + listNesting items
  | .object fs => if fs.isEmpty then 0 else 1 + fieldsNesting fs
  | .null | .bool _ | .int _ | .float _ | .text _ | .sealed _ => 0

def listNesting : List Value → Nat
  | [] => 0
  | v :: rest => max (nesting v) (listNesting rest)

def fieldsNesting : List (String × Value) → Nat
  | [] => 0
  | (_, v) :: rest => max (nesting v) (fieldsNesting rest)

end

mutual

/-- How many values stand inside each other in a value, the innermost one counted. -/
def depth : Value → Nat
  | .list items => listDepth items + 1
  | .object fs => fieldsDepth fs + 1
  | .null | .bool _ | .int _ | .float _ | .text _ | .sealed _ => 1

def listDepth : List Value → Nat
  | [] => 0
  | v :: rest => max (depth v) (listDepth rest)

def fieldsDepth : List (String × Value) → Nat
  | [] => 0
  | (_, v) :: rest => max (depth v) (fieldsDepth rest)

end

mutual

/-- Only the value inside all others and empty containers count for the depth alone. -/
theorem depth_le : ∀ v : Value, v.depth ≤ v.nesting + 1
  | .null | .bool _ | .int _ | .float _ | .text _ | .sealed _ => Nat.le_refl 1
  | .list [] | .object [] => Nat.le_refl 1
  | .list (v :: rest) => by
    have hitems := listDepth_le (v :: rest)
    rw [depth, nesting, if_neg (by simp)]
    omega
  | .object (f :: rest) => by
    have hfields := fieldsDepth_le (f :: rest)
    rw [depth, nesting, if_neg (by simp)]
    omega

theorem listDepth_le : ∀ items : List Value, listDepth items ≤ listNesting items + 1
  | [] => Nat.zero_le _
  | v :: rest => by
    have hv := v.depth_le
    have hrest := listDepth_le rest
    rw [listDepth, listNesting]
    omega

theorem fieldsDepth_le : ∀ fs : List (String × Value), fieldsDepth fs ≤ fieldsNesting fs + 1
  | [] => Nat.zero_le _
  | (_, v) :: rest => by
    have hv := v.depth_le
    have hrest := fieldsDepth_le rest
    rw [fieldsDepth, fieldsNesting]
    omega

end

theorem depth_le_fieldsDepth {fs : Fields} {v : Value} (h : v ∈ Fields.values fs) :
    v.depth ≤ fieldsDepth fs := by
  induction fs with
  | nil => cases h
  | cons f rest ih =>
    rcases List.mem_cons.mp h with rfl | hrest
    · exact Nat.le_max_left _ _
    · exact (ih hrest).trans (Nat.le_max_right _ _)

/-! ## Going through a value -/

theorem depth_pos (v : Value) : 0 < v.depth := by
  cases v with
  | list | object => exact Nat.succ_pos _
  | _ => exact Nat.one_pos

mutual

/-- There is room for a value that is not too deep, and whatever stands in it can be written unless it is
sealed. -/
theorem descend_eq_ok_iff : ∀ (room : Nat) (v : Value),
    v.descend room = .ok () ↔ v.depth ≤ room ∧ v.holdsSealed = false
  | 0, v => by
    have hpos := v.depth_pos
    exact iff_of_false (by rw [descend]; exact nofun) fun h => absurd h.1 (by omega)
  | room + 1, .list items => by
    rw [descend, depth, holdsSealed, Nat.add_le_add_iff_right, descendItems_eq_ok_iff room items]
  | room + 1, .object fs => by
    rw [descend, depth, holdsSealed, Nat.add_le_add_iff_right, descendFields_eq_ok_iff room fs]
  | _ + 1, .sealed _ => iff_of_false nofun fun h => nomatch h.2
  | room + 1, .null | room + 1, .bool _ | room + 1, .int _ | room + 1, .float _
  | room + 1, .text _ => iff_of_true rfl ⟨Nat.le_add_left 1 room, rfl⟩

theorem descendItems_eq_ok_iff (room : Nat) : ∀ items : List Value,
    descendItems room items = .ok () ↔ listDepth items ≤ room ∧ listHoldsSealed items = false
  | [] => iff_of_true rfl ⟨Nat.zero_le _, rfl⟩
  | v :: rest => by
    rw [descendItems, Outcome.bind_eq_ok_iff, listDepth, listHoldsSealed, Nat.max_le,
      Bool.or_eq_false_iff, and_and_and_comm, ← descend_eq_ok_iff room v,
      ← descendItems_eq_ok_iff room rest]
    exact ⟨fun ⟨_, h⟩ => h, fun h => ⟨(), h⟩⟩

theorem descendFields_eq_ok_iff (room : Nat) : ∀ fs : List (String × Value),
    descendFields room fs = .ok () ↔ fieldsDepth fs ≤ room ∧ fieldsHoldSealed fs = false
  | [] => iff_of_true rfl ⟨Nat.zero_le _, rfl⟩
  | (k, v) :: rest => by
    rw [descendFields, Outcome.bind_eq_ok_iff, fieldsDepth, fieldsHoldSealed, Nat.max_le,
      Bool.or_eq_false_iff, and_and_and_comm, ← descend_eq_ok_iff room v,
      ← descendFields_eq_ok_iff room rest]
    exact ⟨fun ⟨_, h⟩ => h, fun h => ⟨(), h⟩⟩

end

mutual

/-- A value that is not sealed anywhere can be wrong in one way only. -/
theorem eq_badValue_of_descend {f : Fault} : ∀ {room : Nat} {v : Value},
    v.descend room = .error f → v.holdsSealed = false → f = .badValue
  | 0, v, h, _ => by
    rw [descend] at h
    exact (Except.error.inj h).symm
  | room + 1, .list items, h, hopen => by
    rw [descend] at h
    exact eq_badValue_of_descendItems h hopen
  | room + 1, .object fs, h, hopen => by
    rw [descend] at h
    exact eq_badValue_of_descendFields h hopen
  | _ + 1, .sealed _, _, hopen => nomatch hopen
  | _ + 1, .null, h, _ | _ + 1, .bool _, h, _ | _ + 1, .int _, h, _ | _ + 1, .float _, h, _
  | _ + 1, .text _, h, _ => nomatch h

theorem eq_badValue_of_descendItems {room : Nat} {f : Fault} : ∀ {items : List Value},
    descendItems room items = .error f → listHoldsSealed items = false → f = .badValue
  | v :: rest, h, hopen => by
    obtain ⟨hv, hrest⟩ := Bool.or_eq_false_iff.mp hopen
    rw [descendItems, Outcome.bind_eq_error_iff] at h
    rcases h with hfirst | ⟨_, -, hlater⟩
    · exact eq_badValue_of_descend hfirst hv
    · exact eq_badValue_of_descendItems hlater hrest

theorem eq_badValue_of_descendFields {room : Nat} {f : Fault} : ∀ {fs : List (String × Value)},
    descendFields room fs = .error f → fieldsHoldSealed fs = false → f = .badValue
  | (k, v) :: rest, h, hopen => by
    obtain ⟨hv, hrest⟩ := Bool.or_eq_false_iff.mp hopen
    rw [descendFields, Outcome.bind_eq_error_iff] at h
    rcases h with hfirst | ⟨_, -, hlater⟩
    · exact eq_badValue_of_descend hfirst hv
    · exact eq_badValue_of_descendFields hlater hrest

end

theorem descendAll_eq_ok_iff (values : List Value) :
    descendAll values = .ok () ↔ ∀ v ∈ values, v.depth ≤ maxDepth ∧ v.holdsSealed = false := by
  rw [descendAll, descendItems_eq_ok_iff]
  induction values with
  | nil => exact iff_of_true ⟨Nat.zero_le _, rfl⟩ (List.forall_mem_nil _)
  | cons v rest ih =>
    rw [listDepth, listHoldsSealed, Nat.max_le, Bool.or_eq_false_iff, and_and_and_comm, ih,
      List.forall_mem_cons]

theorem eq_badValue_of_descendAll {f : Fault} {values : List Value}
    (h : descendAll values = .error f) (hopen : ∀ v ∈ values, v.holdsSealed = false) :
    f = .badValue := by
  refine eq_badValue_of_descendItems h ?_
  clear h
  induction values with
  | nil => rfl
  | cons v rest ih =>
    obtain ⟨hv, hrest⟩ := List.forall_mem_cons.mp hopen
    rw [listHoldsSealed, hv, ih hrest]
    rfl

/-! ## Depth and the order of names -/

theorem listDepth_eq (items : List Value) : listDepth items = (items.map depth).foldr max 0 := by
  induction items with
  | nil => rfl
  | cons v rest ih => rw [listDepth, ih, List.map_cons, List.foldr_cons]

theorem fieldsDepth_eq (fs : List (String × Value)) :
    fieldsDepth fs = (fs.map fun f => f.2.depth).foldr max 0 := by
  induction fs with
  | nil => rfl
  | cons f rest ih => rw [fieldsDepth, ih, List.map_cons, List.foldr_cons]

theorem depth_sortKeys (v : Value) : (Json.sortKeys v).depth = v.depth := by
  induction v using Value.induction with
  | list items ih =>
    rw [Json.sortKeys_list, depth, depth, listDepth_eq, listDepth_eq, List.map_map]
    exact congrArg (fun ds => ds.foldr max 0 + 1) (List.map_congr_left ih)
  | object fs ih =>
    have hperm : ((Fields.inOrder fs).map fun f => depth f.2).Perm (fs.map fun f => depth f.2) := by
      have hsorted := (Keyed.sorted_perm (Keyed.mapValues Json.sortKeys fs)).map fun f => depth f.2
      rw [Keyed.mapValues, List.map_map] at hsorted
      exact hsorted.trans (.of_eq (List.map_congr_left ih))
    rw [Json.sortKeys_object, depth, depth, fieldsDepth_eq, fieldsDepth_eq, hperm.foldr_eq]
  | other v hlist hobject =>
    cases v with
    | list items => exact absurd rfl (hlist items)
    | object fs => exact absurd rfl (hobject fs)
    | _ => rfl

end Value

namespace Json

/-- The character neither opens nor closes anything. -/
def isFlat (c : Char) : Bool :=
  c ≠ '"' && c ≠ '[' && c ≠ '\x7b' && c ≠ ']' && c ≠ '\x7d'

theorem isFlat_iff {c : Char} : isFlat c = true ↔
    c ≠ '"' ∧ c ≠ '[' ∧ c ≠ '\x7b' ∧ c ≠ ']' ∧ c ≠ '\x7d' := by
  simp [isFlat, and_assoc]

variable {st : Style} {depth d m : Nat} {cs rest : List Char}

/-! ## Outside of quotes -/

theorem nestingFrom_cons_flat {c : Char} (h : isFlat c = true) :
    nestingFrom false d m (c :: rest) = nestingFrom false d m rest := by
  obtain ⟨hquote, hlist, hobject, hlistEnd, hobjectEnd⟩ := isFlat_iff.mp h
  rw [nestingFrom.eq_def]
  simp only [Bool.false_eq_true, if_false, hquote, hlist, hobject, hlistEnd, hobjectEnd, or_self]

theorem nestingFrom_flat (h : ∀ c ∈ cs, isFlat c = true) :
    nestingFrom false d m (cs ++ rest) = nestingFrom false d m rest := by
  induction cs with
  | nil => rfl
  | cons c cs ih =>
    obtain ⟨hc, hcs⟩ := List.forall_mem_cons.mp h
    rw [List.cons_append, nestingFrom_cons_flat hc, ih hcs]

theorem isFlat_gap {c : Char} (h : isGap c = true) : isFlat c = true := by
  simp only [isGap, Bool.or_eq_true, decide_eq_true_eq] at h
  rcases h with ((rfl | rfl) | rfl) | rfl <;> rfl

theorem isFlat_digit {c : Char} (h : isAsciiDigit c = true) : isFlat c = true := by
  refine isFlat_iff.mpr ⟨?_, ?_, ?_, ?_, ?_⟩ <;>
  · rintro rfl
    exact absurd h (by decide)

theorem flat_lineStart (st : Style) (depth : Nat) : ∀ c ∈ lineStart st depth, isFlat c = true :=
  fun c hc => isFlat_gap (lineStart_gaps st depth c hc)

theorem IsSeparator.flat {mark : Char} (h : IsSeparator mark cs) (hmark : isFlat mark = true) :
    ∀ c ∈ cs, isFlat c = true := by
  rw [h.eq]
  exact List.forall_mem_cons.mpr ⟨hmark, fun c hc => isFlat_gap (h.blanks c hc)⟩

theorem NumeralParts.IsRegular.flat {p : NumeralParts} (hp : p.IsRegular) :
    ∀ c ∈ p.chars, isFlat c = true := by
  have hsign : ∀ c ∈ (if p.negative then ['-'] else []), isFlat c = true := by
    cases p.negative <;> exact List.all_eq_true.mp rfl
  have hwhole : ∀ c ∈ p.whole, isFlat c = true := fun c hc => isFlat_digit (hp.whole.digits c hc)
  have hpart : ∀ c ∈ partChars p.part, isFlat c = true := by
    cases hp' : p.part with
    | none => exact List.forall_mem_nil _
    | some ds =>
      have hds := (hp.part ds hp').digits
      exact List.forall_mem_cons.mpr ⟨rfl, fun c hc => isFlat_digit (hds c hc)⟩
  have hexponent : ∀ c ∈ exponentChars p.exponent, isFlat c = true := by
    cases hp' : p.exponent with
    | none => exact List.forall_mem_nil _
    | some exponent =>
      obtain ⟨sign, ds⟩ := exponent
      obtain ⟨hds, hsigns⟩ := hp.exponent sign ds hp'
      refine List.forall_mem_cons.mpr ⟨rfl, fun c hc => ?_⟩
      rcases List.mem_append.mp hc with hc | hc
      · cases sign with
        | none => cases hc
        | some s =>
          rw [List.mem_singleton.mp hc]
          rcases hsigns s rfl with rfl | rfl <;> rfl
      · exact isFlat_digit (hds.digits c hc)
  intro c hc
  simp only [chars, List.mem_append] at hc
  rcases hc with hc | hc | hc | hc
  · exact hsign c hc
  · exact hwhole c hc
  · exact hpart c hc
  · exact hexponent c hc

theorem flat_null (st : Style) (depth : Nat) : ∀ c ∈ writeAt st depth .null, isFlat c = true := by
  rw [writeAt]
  exact List.all_eq_true.mp rfl

theorem flat_bool (st : Style) (depth : Nat) (b : Bool) :
    ∀ c ∈ writeAt st depth (.bool b), isFlat c = true := by
  rw [writeAt]
  cases b <;> exact List.all_eq_true.mp rfl

theorem flat_int (n : Int) : ∀ c ∈ decimalText n, isFlat c = true := by
  rw [← integerParts_chars]
  exact (integerParts_regular n).flat

theorem flat_float {x : Binary64} (hx : (Value.float x).isLegible st.words = true) :
    ∀ c ∈ writeFloat st x, isFlat c = true := by
  rcases finite_or_word hx with hfinite | ⟨hst, rfl | ⟨negative, rfl⟩⟩
  · obtain ⟨p, hp⟩ := exists_writesDouble st.layout hfinite
    rw [writeFloat, if_pos hfinite, ← hp.chars]
    exact hp.regular.flat
  · rw [writeFloat_nan hst]
    exact List.all_eq_true.mp rfl
  · rw [writeFloat_infinity hst]
    cases negative <;> exact List.all_eq_true.mp rfl

/-- A value whose document opens nothing. -/
theorem nestingFrom_plain {v : Value} (hflat : ∀ c ∈ writeAt st depth v, isFlat c = true)
    (hv : v.nesting = 0) (hle : d ≤ m) :
    nestingFrom false d m (writeAt st depth v ++ rest) =
      nestingFrom false d (max m (d + v.nesting)) rest := by
  rw [nestingFrom_flat hflat, hv, Nat.add_zero, Nat.max_eq_left hle]

/-! ## In quotes -/

/-- The character neither ends a text in quotes nor escapes the next one. -/
theorem nestingFrom_cons_quoted {c : Char} (hquote : c ≠ '"') (hslash : c ≠ '\\') :
    nestingFrom true d m (c :: rest) = nestingFrom true d m rest := by
  rw [nestingFrom.eq_def]
  simp only [if_true, if_neg hslash, ne_eq, hquote, not_false_eq_true, decide_true]

theorem nestingFrom_escaped (c : Char) :
    nestingFrom true d m ('\\' :: c :: rest) = nestingFrom true d m rest := by
  rw [nestingFrom]
  rfl

theorem nestingFrom_quoted (h : ∀ c ∈ cs, c ≠ '"' ∧ c ≠ '\\') :
    nestingFrom true d m (cs ++ rest) = nestingFrom true d m rest := by
  induction cs with
  | nil => rfl
  | cons c cs ih =>
    obtain ⟨⟨hquote, hslash⟩, hcs⟩ := List.forall_mem_cons.mp h
    rw [List.cons_append, nestingFrom_cons_quoted hquote hslash, ih hcs]

theorem hexDigit_ne : ∀ n < 16, Text.hexDigit n ≠ '"' ∧ Text.hexDigit n ≠ '\\' := by decide

theorem hexDigits_ne {width n : Nat} {c : Char} (h : c ∈ Text.hexDigits width n) :
    c ≠ '"' ∧ c ≠ '\\' := by
  induction width generalizing n with
  | zero => cases h
  | succ width ih =>
    rcases List.mem_append.mp h with hinit | hlast
    · exact ih hinit
    · rw [List.mem_singleton.mp hlast]
      exact hexDigit_ne _ (Nat.mod_lt _ (by decide))

theorem nestingFrom_unitEscape (n : Nat) :
    nestingFrom true d m (unitEscape n ++ rest) = nestingFrom true d m rest := by
  have hdigits : ∀ c ∈ Text.hexDigits 4 n, c ≠ '"' ∧ c ≠ '\\' := fun _ => hexDigits_ne
  rw [unitEscape, List.cons_append, List.cons_append, nestingFrom_escaped,
    nestingFrom_quoted hdigits]

theorem nestingFrom_escapeChar (ascii : Bool) (c : Char) :
    nestingFrom true d m (escapeChar ascii c ++ rest) = nestingFrom true d m rest := by
  unfold escapeChar
  split
  · exact nestingFrom_escaped _
  split
  · exact nestingFrom_escaped _
  rename_i hquote hslash
  split
  · exact nestingFrom_escaped _
  split
  · exact nestingFrom_escaped _
  split
  · exact nestingFrom_escaped _
  split
  · exact nestingFrom_escaped _
  split
  · exact nestingFrom_escaped _
  split
  · exact nestingFrom_unitEscape _
  split
  · exact nestingFrom_cons_quoted hquote hslash
  split
  · exact nestingFrom_unitEscape _
  · rw [List.append_assoc, nestingFrom_unitEscape, nestingFrom_unitEscape]

/-- A text opens nothing. -/
theorem nestingFrom_writeText (ascii : Bool) (s : String) :
    nestingFrom false d m (writeText ascii s ++ rest) = nestingFrom false d m rest := by
  have hescapes (cs : List Char) :
      nestingFrom true d m (cs.flatMap (escapeChar ascii) ++ '"' :: rest) =
        nestingFrom false d m rest := by
    induction cs with
    | nil =>
      rw [List.flatMap_nil, List.nil_append, nestingFrom.eq_def]
      rfl
    | cons c cs ih => rw [List.flatMap_cons, List.append_assoc, nestingFrom_escapeChar, ih]
  rw [writeText, List.cons_append, nestingFrom.eq_def, List.append_assoc]
  exact hescapes s.toList

/-! ## Containers -/

/-- The first item of a list does not close it. -/
theorem endsAtOnce_writeAt {v : Value} (hv : v.isLegible st.words = true) :
    endsAtOnce (lineStart st depth ++ (writeAt st depth v ++ rest)) = false := by
  obtain ⟨c, cs, hchars, hstart⟩ := exists_start st depth (Value.isReadable_of_isLegible hv)
  have hbrace : c ≠ '\x7d' := by
    have hmem : c ∈ writeAt st depth v := by simp [hchars]
    rintro rfl
    cases v with
    | null => cases hchars
    | bool b => cases b <;> cases hchars
    | int n => cases flat_int n _ hmem
    | float x => cases flat_float hv _ hmem
    | text s => cases hchars
    | list items => cases items <;> cases hchars
    | object fs => cases fs <;> cases hchars
    | sealed fs => cases hv
  rw [endsAtOnce, skipGaps_append (lineStart_gaps st depth), hchars, List.cons_append,
    skipGaps_cons hstart.gap]
  simp [hstart.bracket, hbrace]

/-- A container that does not end where it starts is open in what comes after. -/
theorem nestingFrom_open {c : Char} (h : c = '[' ∨ c = '\x7b') (hopen : endsAtOnce rest = false) :
    nestingFrom false d m (c :: rest) = nestingFrom false (d + 1) (max m (d + 1)) rest := by
  rcases h with rfl | rfl <;>
  · rw [nestingFrom.eq_def]
    simp [hopen]

theorem nestingFrom_close {c : Char} (h : c = ']' ∨ c = '\x7d') :
    nestingFrom false (d + 1) m (c :: rest) = nestingFrom false d m rest := by
  rcases h with rfl | rfl <;>
  · rw [nestingFrom.eq_def]
    rfl

theorem nestingFrom_empty_list :
    nestingFrom false d m ('[' :: ']' :: rest) = nestingFrom false d m rest := by
  rw [nestingFrom.eq_def]
  exact nestingFrom_close (.inl rfl)

theorem nestingFrom_empty_object :
    nestingFrom false d m ('\x7b' :: '\x7d' :: rest) = nestingFrom false d m rest := by
  rw [nestingFrom.eq_def]
  exact nestingFrom_close (.inr rfl)

-- The induction is on the value. A part opens nothing that it does not close, so only the most
-- containers that have been open at once grow, and they never fall below those that are open.
mutual

/-- The document of a value opens as many containers at once as the value nests. -/
theorem nestingFrom_writeAt (hst : st.IsRegular) : ∀ (v : Value) (depth d m : Nat)
    (rest : List Char), v.isLegible st.words = true → d ≤ m →
    nestingFrom false d m (writeAt st depth v ++ rest) =
      nestingFrom false d (max m (d + v.nesting)) rest
  | .null, depth, d, m, rest, _, hle => nestingFrom_plain (flat_null st depth) rfl hle
  | .bool b, depth, d, m, rest, _, hle => nestingFrom_plain (flat_bool st depth b) rfl hle
  | .int n, depth, d, m, rest, _, hle => nestingFrom_plain (flat_int n) rfl hle
  | .float x, depth, d, m, rest, hv, hle => nestingFrom_plain (flat_float hv) rfl hle
  | .text s, depth, d, m, rest, _, hle => by
    rw [writeAt, nestingFrom_writeText, Value.nesting, Nat.add_zero, Nat.max_eq_left hle]
  | .list [], depth, d, m, rest, _, hle => by
    have hnesting : (Value.list []).nesting = 0 := rfl
    rw [writeAt, List.cons_append, List.cons_append, nestingFrom_empty_list, hnesting,
      Nat.add_zero, Nat.max_eq_left hle]
    rfl
  | .list (v :: items), depth, d, m, rest, hv, hle => by
    rw [Value.isLegible, Value.listIsLegible, Bool.and_eq_true] at hv
    obtain ⟨hv, hitems⟩ := hv
    have hnesting : (Value.list (v :: items)).nesting = 1 + max v.nesting (Value.listNesting items) :=
      rfl
    rw [writeAt]
    simp only [List.cons_append, List.append_assoc, List.nil_append]
    rw [nestingFrom_open (.inl rfl) (endsAtOnce_writeAt hv), nestingFrom_flat (flat_lineStart _ _),
      nestingFrom_writeAt hst v (depth + 1) (d + 1) _ _ hv (by omega),
      nestingFrom_writeItems hst items (depth + 1) (d + 1) _ _ hitems (by omega),
      nestingFrom_flat (flat_lineStart _ _), nestingFrom_close (.inl rfl), hnesting]
    congr 1
    omega
  | .object [], depth, d, m, rest, _, hle => by
    have hnesting : (Value.object []).nesting = 0 := rfl
    rw [writeAt, List.cons_append, List.cons_append, nestingFrom_empty_object, hnesting,
      Nat.add_zero, Nat.max_eq_left hle]
    rfl
  | .object ((k, v) :: fs), depth, d, m, rest, hv, hle => by
    rw [Value.isLegible, Value.fieldsAreLegible, Bool.and_eq_true, Bool.and_eq_true] at hv
    obtain ⟨-, hv, hfs⟩ := hv
    have hnesting : (Value.object ((k, v) :: fs)).nesting =
        1 + max v.nesting (Value.fieldsNesting fs) := rfl
    -- a name begins with a quotation mark and does not close the object
    have hopen (tail : List Char) :
        endsAtOnce (lineStart st (depth + 1) ++ (writeText st.ascii k ++ tail)) = false := by
      rw [endsAtOnce, skipGaps_append (lineStart_gaps st _), writeText, List.cons_append,
        skipGaps_cons (by decide)]
      rfl
    rw [writeAt, writeField]
    simp only [List.cons_append, List.append_assoc, List.nil_append]
    rw [nestingFrom_open (.inr rfl) (hopen _), nestingFrom_flat (flat_lineStart _ _),
      nestingFrom_writeText, nestingFrom_flat (hst.key.flat rfl),
      nestingFrom_writeAt hst v (depth + 1) (d + 1) _ _ hv (by omega),
      nestingFrom_writeFields hst fs (depth + 1) (d + 1) _ _ hfs (by omega),
      nestingFrom_flat (flat_lineStart _ _), nestingFrom_close (.inr rfl), hnesting]
    congr 1
    omega
  | .sealed fs, depth, d, m, rest, hv, _ => by cases hv

theorem nestingFrom_writeItems (hst : st.IsRegular) : ∀ (items : List Value) (depth d m : Nat)
    (rest : List Char), Value.listIsLegible st.words items = true → d ≤ m →
    nestingFrom false d m (writeItems st depth items ++ rest) =
      nestingFrom false d (max m (d + Value.listNesting items)) rest
  | [], depth, d, m, rest, _, hle => by
    rw [writeItems, List.nil_append, Value.listNesting, Nat.add_zero, Nat.max_eq_left hle]
  | v :: items, depth, d, m, rest, hitems, hle => by
    rw [Value.listIsLegible, Bool.and_eq_true] at hitems
    obtain ⟨hv, hitems⟩ := hitems
    rw [writeItems]
    simp only [List.append_assoc]
    rw [nestingFrom_flat (hst.item.flat rfl), nestingFrom_flat (flat_lineStart _ _),
      nestingFrom_writeAt hst v depth d m _ hv hle,
      nestingFrom_writeItems hst items depth d _ rest hitems (by omega), Value.listNesting]
    congr 1
    omega

theorem nestingFrom_writeFields (hst : st.IsRegular) : ∀ (fs : List (String × Value))
    (depth d m : Nat) (rest : List Char), Value.fieldsAreLegible st.words fs = true → d ≤ m →
    nestingFrom false d m (writeFields st depth fs ++ rest) =
      nestingFrom false d (max m (d + Value.fieldsNesting fs)) rest
  | [], depth, d, m, rest, _, hle => by
    rw [writeFields, List.nil_append, Value.fieldsNesting, Nat.add_zero, Nat.max_eq_left hle]
  | (k, v) :: fs, depth, d, m, rest, hfs, hle => by
    rw [Value.fieldsAreLegible, Bool.and_eq_true] at hfs
    obtain ⟨hv, hfs⟩ := hfs
    rw [writeFields, writeField]
    simp only [List.append_assoc]
    rw [nestingFrom_flat (hst.item.flat rfl), nestingFrom_flat (flat_lineStart _ _),
      nestingFrom_writeText, nestingFrom_flat (hst.key.flat rfl),
      nestingFrom_writeAt hst v depth d m _ hv hle,
      nestingFrom_writeFields hst fs depth d _ rest hfs (by omega), Value.fieldsNesting]
    congr 1
    omega

end

/-! ## Whole documents -/

/-- The strict reader reads back the document of a value that is not nested too deeply, and refuses
any other. -/
theorem readWith?_strict (hst : st.IsRegular) {v : Value} (hv : v.isLegible st.words = true) :
    readWith? .strict (String.ofList (writeAt st 0 v)) =
      if v.nesting ≤ maxNesting then some v else none := by
  have hnesting : nestingFrom false 0 0 (writeAt st 0 v) = v.nesting := by
    have h := nestingFrom_writeAt hst v 0 0 0 [] hv (Nat.le_refl 0)
    rwa [List.append_nil, Nat.zero_add, Nat.zero_max] at h
  have hread := readValue_writeAt (d := .strict) (by decide) hst v 0
    ((writeAt st 0 v).length + 2) [] (Value.isReadable_of_isLegible hv) (by omega) endsNumeral_nil
  rw [List.append_nil, Value.reread_of_isLegible hv] at hread
  rw [readWith?, String.toList_ofList]
  by_cases hle : v.nesting ≤ maxNesting
  · have hshallow : Dialect.isTooDeep .strict (writeAt st 0 v) = false := by
      simp [Dialect.isTooDeep, hnesting, hle]
    simp only [hshallow, hread, if_pos hle]
    rfl
  · have hdeep : Dialect.isTooDeep .strict (writeAt st 0 v) = true := by
      simp only [Dialect.isTooDeep, hnesting, decide_true, Bool.true_and, decide_eq_true_eq]
      omega
    simp only [hdeep, if_neg hle, if_true]

end Json
end Conveyor
