import Conveyor.Proofs.Json.Canonical

/-!
# What the reader gives

Every value that is read from a text is legible: its integers are within the limit of the reader,
its doubles are rounded to finite ones or infinities, and no name occurs twice in an object. So
its own document is read as the same value again.
-/

namespace Conveyor

/-! ## Doubles -/

namespace Binary64

variable {negative : Bool}

theorem isLegible_zero : (Value.float ⟨negative, 0, 0⟩).isLegible true = true := by
  cases negative <;> decide

theorem isLegible_infinity : (Value.float (infinity negative)).isLegible true = true := by
  cases negative <;> decide

/-- A number that is put together is finite, or beyond the range. -/
theorem isLegible_assemble (m : Nat) (q : Int) :
    (Value.float (assemble negative m q)).isLegible true = true := by
  have hplaced : ∀ (m : Nat) (q : Int), (Value.float
      (if m < 4503599627370496 then ⟨negative, 0, Fin.ofNat _ m⟩
      else if 971 < q then infinity negative
      else ⟨negative, Fin.ofNat _ (q + 1075).toNat, Fin.ofNat _ (m - 4503599627370496)⟩)).isLegible
        true = true := by
    intro m q
    split
    · rfl
    split
    · exact isLegible_infinity
    · -- the scale is within the range, so that the exponent field is not the one of infinities
      have hexponent : (q + 1075).toNat % 2048 ≠ 2047 := by omega
      simp [Value.isLegible, isFinite, Fin.ofNat, hexponent]
  exact hplaced _ _

theorem isLegible_ofRatio (n d : Nat) :
    (Value.float (ofRatio negative n d)).isLegible true = true := by
  unfold ofRatio
  split
  · exact isLegible_zero
  · exact isLegible_assemble _ _

theorem isLegible_ofDecimal (digits : Nat) (e : Int) :
    (Value.float (ofDecimal negative digits e)).isLegible true = true := by
  unfold ofDecimal
  split
  · exact isLegible_zero
  split
  · exact isLegible_infinity
  split
  · split
    · exact isLegible_zero
    · exact isLegible_ofRatio _ _
  · exact isLegible_ofRatio _ _

end Binary64

namespace Json

/-! ## Numerals -/

theorem numberOf_lt {ds : List Char} (h : ∀ c ∈ ds, isAsciiDigit c = true) :
    numberOf ds < 10 ^ ds.length := by
  induction ds using List.reverseRecOn with
  | nil => decide
  | append_singleton ds c ih =>
    have hfront := ih fun c hc => h c (List.mem_append_left _ hc)
    have hdigit : digitValue c ≤ 9 := by
      have hc := h c (List.mem_append_right _ List.mem_cons_self)
      rw [isAsciiDigit, Bool.and_eq_true, decide_eq_true_eq, decide_eq_true_eq] at hc
      rw [digitValue]
      omega
    have hlast : numberOf (ds ++ [c]) = 10 * numberOf ds + digitValue c := by
      simp [numberOf, Text.ofDigits]
    rw [hlast, List.length_append, List.length_singleton, pow_succ]
    omega

/-- An integer of not too many digits is legible. -/
theorem isLegible_numberOf {words : Bool} (negative : Bool) {ds : List Char}
    (h : ∀ c ∈ ds, isAsciiDigit c = true) (hlength : ds.length ≤ maxDigits) :
    (Value.int (if negative then -(numberOf ds : Int) else numberOf ds)).isLegible words =
      true := by
  have hlt : numberOf ds < 10 ^ maxDigits :=
    (numberOf_lt h).trans_le (Nat.pow_le_pow_right (by decide) hlength)
  have habs : (if negative then -(numberOf ds : Int) else numberOf ds).natAbs = numberOf ds := by
    cases negative <;> simp
  rw [Value.isLegible, habs, decimalDigits_eq, decide_eq_true_eq]
  exact (Nat.length_toDigits_le_iff (by decide) (by decide)).mpr hlt

theorem digits_readWhole (cs : List Char) : ∀ c ∈ readWhole cs, isAsciiDigit c = true := by
  rw [readWhole.eq_def]
  split
  · simp [isAsciiDigit_zero]
  · exact List.all_eq_true.mp List.all_takeWhile

theorem whole_of_readUnsigned? {negative : Bool} {cs rest : List Char} {p : NumeralParts}
    (h : readUnsigned? negative cs = some (p, rest)) : p.whole = readWhole cs := by
  rw [readUnsigned?] at h
  split at h
  · cases h
  · cases h
    rfl

theorem digits_whole {cs rest : List Char} {p : NumeralParts}
    (h : readNumeral? cs = some (p, rest)) : ∀ c ∈ p.whole, isAsciiDigit c = true := by
  have hunsigned : ∃ negative tail, readUnsigned? negative tail = some (p, rest) := by
    unfold readNumeral? at h
    split at h
    exact ⟨_, _, h⟩
  obtain ⟨negative, tail, h⟩ := hunsigned
  rw [whole_of_readUnsigned? h]
  exact digits_readWhole tail

theorem isLegible_value? {d : Dialect} {raw : List Char} {p : NumeralParts} {v : Value}
    (hdigits : ∀ c ∈ p.whole, isAsciiDigit c = true) (h : p.value? d raw = some v) :
    v.isLegible true = true := by
  unfold NumeralParts.value? at h
  split at h
  · split at h
    · cases h
    · rename_i hlength
      obtain rfl := Option.some.inj h
      exact isLegible_numberOf p.negative hdigits (Nat.le_of_not_lt hlength)
  · have heither : ∀ asNumber : Bool, (if asNumber then Value.float p.toBinary64
        else .text (String.ofList raw)).isLegible true = true := by
      rintro (_ | _)
      · rfl
      · exact Binary64.isLegible_ofDecimal _ _
    obtain rfl := Option.some.inj h
    exact heither _

theorem isLegible_words (d : Dialect) : ∀ w ∈ words d, w.2.isLegible true = true := by
  cases d <;> decide

theorem isLegible_readPlain? {d : Dialect} {cs rest : List Char} {v : Value}
    (h : readPlain? d cs = some (v, rest)) : v.isLegible true = true := by
  unfold readPlain? at h
  split at h
  · rename_i found hfound
    cases h
    obtain ⟨⟨word, v'⟩, hmem, hword⟩ := List.exists_of_findSome?_eq_some hfound
    obtain ⟨rest', -, hpair⟩ := Option.map_eq_some_iff.mp hword
    cases hpair
    exact isLegible_words d _ hmem
  · obtain ⟨⟨p, rest'⟩, hnumeral, h⟩ := Option.bind_eq_some_iff.mp h
    obtain ⟨v', hvalue, h⟩ := Option.bind_eq_some_iff.mp h
    cases h
    exact isLegible_value? (digits_whole hnumeral) hvalue

/-! ## Values -/

mutual

/-- What is read is legible. -/
theorem isLegible_readValue {d : Dialect} : ∀ (fuel : Nat) {cs rest : List Char} {v : Value},
    readValue d fuel cs = some (v, rest) → v.isLegible true = true
  | 0, _, _, _, h => by cases h
  | fuel + 1, cs, rest, v, h => by
    rw [readValue] at h
    split at h
    · cases h
    · obtain ⟨_, -, hpair⟩ := Option.map_eq_some_iff.mp h
      cases hpair
      rfl
    · split at h
      · cases h
        rfl
      · obtain ⟨⟨vs, _⟩, hread, hpair⟩ := Option.map_eq_some_iff.mp h
        cases hpair
        exact (Value.isLegible_list vs).mpr (isLegible_readItems fuel hread)
    · split at h
      · cases h
        rfl
      · obtain ⟨⟨fs, _⟩, hread, hpair⟩ := Option.map_eq_some_iff.mp h
        cases hpair
        obtain ⟨hkeys, hmem⟩ := Keyed.ofPairs_spec fs
        exact (Value.isLegible_object _).mpr
          ⟨hkeys, fun f hf => isLegible_readFields fuel hread f (hmem f hf)⟩
    · exact isLegible_readPlain? h

theorem isLegible_readItems {d : Dialect} : ∀ (fuel : Nat) {cs rest : List Char} {vs : List Value},
    readItems d fuel cs = some (vs, rest) → ∀ v ∈ vs, v.isLegible true = true
  | 0, _, _, _, h => by cases h
  | fuel + 1, cs, rest, vs, h => by
    rw [readItems] at h
    obtain ⟨⟨v, _⟩, hvalue, h⟩ := Option.bind_eq_some_iff.mp h
    have hv := isLegible_readValue fuel hvalue
    dsimp only at h
    split at h
    · obtain ⟨⟨more, _⟩, hread, h⟩ := Option.bind_eq_some_iff.mp h
      cases h
      exact List.forall_mem_cons.mpr ⟨hv, isLegible_readItems fuel hread⟩
    · cases h
      exact List.forall_mem_singleton.mpr hv
    · cases h

theorem isLegible_readFields {d : Dialect} : ∀ (fuel : Nat) {cs rest : List Char}
    {fs : List (String × Value)}, readFields d fuel cs = some (fs, rest) →
      ∀ f ∈ fs, f.2.isLegible true = true
  | 0, _, _, _, h => by cases h
  | fuel + 1, cs, rest, fs, h => by
    rw [readFields] at h
    split at h
    · obtain ⟨⟨k, _⟩, -, h⟩ := Option.bind_eq_some_iff.mp h
      dsimp only at h
      split at h
      · obtain ⟨⟨v, _⟩, hvalue, h⟩ := Option.bind_eq_some_iff.mp h
        have hv := isLegible_readValue fuel hvalue
        dsimp only at h
        split at h
        · obtain ⟨⟨more, _⟩, hread, h⟩ := Option.bind_eq_some_iff.mp h
          cases h
          exact List.forall_mem_cons.mpr ⟨hv, isLegible_readFields fuel hread⟩
        · cases h
          exact List.forall_mem_singleton.mpr hv
        · cases h
      · cases h
    · cases h

end

/-- A document holds legible values only. -/
theorem isLegible_of_read? {s : String} {v : Value} (h : read? s = some v) :
    v.isLegible true = true := by
  unfold read? readWith? at h
  dsimp only at h
  split at h
  · cases h
  · split at h
    · rename_i hread
      split at h
      · cases h
        exact isLegible_readValue _ hread
      · cases h
    · cases h

end Json
end Conveyor
