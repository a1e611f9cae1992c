import Conveyor.Json.Printer
import Conveyor.Json.Reader

/-!
# Texts in JSON

A text is read back from its escapes character by character, in every dialect.
-/

namespace Conveyor.Json

theorem hexValue?_hexDigit : ∀ n < 16, hexValue? (Text.hexDigit n) = some n := by decide

/-- A unit is read back from its four digits. -/
theorem readUnit?_hexDigits {n : Nat} (h : n < 0x10000) (rest : List Char) :
    readUnit? (Text.hexDigits 4 n ++ rest) = some (n, rest) := by
  have hfirst := hexValue?_hexDigit (n / 16 / 16 / 16 % 16) (Nat.mod_lt _ (by decide))
  have hsecond := hexValue?_hexDigit (n / 16 / 16 % 16) (Nat.mod_lt _ (by decide))
  have hthird := hexValue?_hexDigit (n / 16 % 16) (Nat.mod_lt _ (by decide))
  have hfourth := hexValue?_hexDigit (n % 16) (Nat.mod_lt _ (by decide))
  simp only [Text.hexDigits, List.nil_append, List.cons_append, readUnit?, hfirst, hsecond, hthird,
    hfourth, Option.bind_eq_bind, Option.bind_some, Option.pure_def, Option.some.injEq,
    Prod.mk.injEq, and_true]
  omega

theorem isValidChar (c : Char) : c.toNat < 0xD800 ∨ 0xDFFF < c.toNat ∧ c.toNat < 0x110000 :=
  c.valid

theorem isBroken_eq_false {unit : Nat} {c : Char} (h : c.toNat < 0x10000 → unit = c.toNat) :
    isBroken unit c = false := by
  have hvalid := isValidChar c
  simp only [isBroken, Bool.and_eq_false_iff, decide_eq_false_iff_not]
  by_cases hc : c.toNat < 0x10000
  · rw [h hc]
    omega
  · omega

/-- Reading goes on behind a character that was read as such. -/
theorem readTextTail_plain (d : Dialect) (fuel : Nat) {c : Char} (rest : List Char)
    (hquote : c ≠ '"') (hslash : c ≠ '\\') (hlow : 32 ≤ c.toNat) :
    readTextTail d (fuel + 1) (c :: rest) =
      (readTextTail d fuel rest).map fun p => (c :: p.1, p.2) := by
  rw [readTextTail.eq_def]
  simp only [if_neg hquote, if_neg (Nat.not_lt.mpr hlow), if_neg hslash]
  cases readTextTail d fuel rest <;> rfl

theorem readTextTail_simple (d : Dialect) (fuel : Nat) {c e : Char} (rest : List Char)
    (he : e ≠ 'u') (h : simpleEscape? e = some c) :
    readTextTail d (fuel + 1) ('\\' :: e :: rest) =
      (readTextTail d fuel rest).map fun p => (c :: p.1, p.2) := by
  rw [readTextTail, if_neg (by decide), if_neg (by decide), if_pos rfl, h]
  · cases readTextTail d fuel rest <;> rfl
  · intro heq
    exact absurd heq he

theorem readTextTail_unit (d : Dialect) (fuel : Nat) {c : Char} {unit : Nat}
    {escape tail rest : List Char} (hunit : readUnit? escape = some (unit, tail))
    (hchar : readEscapedUnit unit tail = (c, rest))
    (hwhole : c.toNat < 0x10000 → unit = c.toNat) :
    readTextTail d (fuel + 1) ('\\' :: 'u' :: escape) =
      (readTextTail d fuel rest).map fun p => (c :: p.1, p.2) := by
  rw [readTextTail, if_neg (by decide), if_neg (by decide), if_pos rfl]
  simp only [hunit, Option.bind_eq_bind, Option.bind_some, hchar, isBroken_eq_false hwhole,
    Bool.and_false]
  cases readTextTail d fuel rest <;> rfl

/-- A character beyond the first plane is read from its two units. -/
theorem readEscapedUnit_pair {high low : Nat} (hhigh : 0xD800 ≤ high ∧ high ≤ 0xDBFF)
    (hlow : 0xDC00 ≤ low ∧ low ≤ 0xDFFF) (rest : List Char) :
    readEscapedUnit high (unitEscape low ++ rest) =
      (Char.ofNat (0x10000 + (high - 0xD800) * 0x400 + (low - 0xDC00)), rest) := by
  have hunit : readUnit? (Text.hexDigits 4 low ++ rest) = some (low, rest) :=
    readUnit?_hexDigits (by omega) rest
  unfold readEscapedUnit
  rw [if_pos hhigh]
  simp only [unitEscape, List.cons_append, hunit]
  rw [if_pos hlow]

/-- The two units of a character beyond the first plane. -/
theorem exists_units {c : Char} (h : 0x10000 ≤ c.toNat) :
    ∃ high low, 0xD800 + (c.toNat - 0x10000) / 0x400 = high ∧
      0xDC00 + (c.toNat - 0x10000) % 0x400 = low ∧
      (0xD800 ≤ high ∧ high ≤ 0xDBFF) ∧ (0xDC00 ≤ low ∧ low ≤ 0xDFFF) ∧
      Char.ofNat (0x10000 + (high - 0xD800) * 0x400 + (low - 0xDC00)) = c := by
  have hvalid := isValidChar c
  refine ⟨_, _, rfl, rfl, by omega, by omega, ?_⟩
  rw [show 0x10000 + (0xD800 + (c.toNat - 0x10000) / 0x400 - 0xD800) * 0x400
      + (0xDC00 + (c.toNat - 0x10000) % 0x400 - 0xDC00) = c.toNat by omega, Char.ofNat_toNat]

theorem readEscapedUnit_single {c : Char} (rest : List Char) :
    readEscapedUnit c.toNat rest = (c, rest) := by
  have hvalid := isValidChar c
  unfold readEscapedUnit
  rw [if_neg (by omega), unitChar, if_neg (by omega), Char.ofNat_toNat]

/-- One character is read back from its escape. -/
theorem readTextTail_escapeChar (d : Dialect) (ascii : Bool) (fuel : Nat) (c : Char)
    (rest : List Char) :
    readTextTail d (fuel + 1) (escapeChar ascii c ++ rest) =
      (readTextTail d fuel rest).map fun p => (c :: p.1, p.2) := by
  have hsingle {n : Nat} (hn : c.toNat = n) (hlt : n < 0x10000) :
      readTextTail d (fuel + 1) (unitEscape n ++ rest) =
        (readTextTail d fuel rest).map fun p => (c :: p.1, p.2) := by
    subst hn
    exact readTextTail_unit d fuel (readUnit?_hexDigits hlt rest) (readEscapedUnit_single rest)
      fun _ => rfl
  have hofNat {n : Nat} (hn : c.toNat = n) : c = Char.ofNat n := by
    rw [← hn, Char.ofNat_toNat]
  -- the cases in the order of the definition: seven short escapes, other controls, characters
  -- that stand for themselves, one unit, two units
  unfold escapeChar
  split
  · rename_i hc
    subst hc
    exact readTextTail_simple d fuel rest (by decide) rfl
  split
  · rename_i hc
    subst hc
    exact readTextTail_simple d fuel rest (by decide) rfl
  split
  · rename_i hc
    subst hc
    exact readTextTail_simple d fuel rest (by decide) rfl
  split
  · rename_i hc
    subst hc
    exact readTextTail_simple d fuel rest (by decide) rfl
  split
  · rename_i hc
    subst hc
    exact readTextTail_simple d fuel rest (by decide) rfl
  split
  · rename_i hc
    rw [hofNat hc]
    exact readTextTail_simple d fuel rest (by decide) rfl
  split
  · rename_i hc
    rw [hofNat hc]
    exact readTextTail_simple d fuel rest (by decide) rfl
  split
  · rename_i hlow
    exact hsingle rfl (by omega)
  split
  · rename_i hquote hslash _ _ _ _ _ hlow _
    exact readTextTail_plain d fuel rest hquote hslash (by omega)
  split
  · rename_i hplane
    exact hsingle rfl hplane
  · rename_i hplane
    obtain ⟨high, low, hhigh, hlow, hhighs, hlows, hchar⟩ := exists_units (Nat.not_lt.mp hplane)
    simp only [hhigh, hlow, List.append_assoc]
    have hunit : high < 0x10000 := by omega
    refine readTextTail_unit d fuel (readUnit?_hexDigits hunit _) ?_ fun h => absurd h hplane
    rw [readEscapedUnit_pair hhighs hlows, hchar]

/-- A text is read back from its escapes and the closing quote. -/
theorem readTextTail_escapes (d : Dialect) (ascii : Bool) {fuel : Nat} (cs rest : List Char)
    (h : cs.length < fuel) :
    readTextTail d fuel (cs.flatMap (escapeChar ascii) ++ '"' :: rest) = some (cs, rest) := by
  induction cs generalizing fuel with
  | nil =>
    obtain ⟨fuel, rfl⟩ := Nat.exists_eq_add_one_of_ne_zero (Nat.ne_of_gt h)
    rfl
  | cons c cs ih =>
    obtain ⟨fuel, rfl⟩ := Nat.exists_eq_add_one_of_ne_zero (Nat.ne_of_gt (Nat.zero_lt_of_lt h))
    rw [List.flatMap_cons, List.append_assoc, readTextTail_escapeChar,
      ih (Nat.lt_of_succ_lt_succ h)]
    rfl

theorem one_le_length_escapeChar (ascii : Bool) (c : Char) : 1 ≤ (escapeChar ascii c).length := by
  unfold escapeChar
  repeat' split
  all_goals simp [unitEscape]

theorem length_le_escapes (ascii : Bool) (cs : List Char) :
    cs.length ≤ (cs.flatMap (escapeChar ascii)).length := by
  induction cs with
  | nil => exact Nat.le_refl _
  | cons c cs ih =>
    rw [List.flatMap_cons, List.length_append, List.length_cons]
    have hone := one_le_length_escapeChar ascii c
    omega

/-- A text is read back as it was written. -/
theorem readText?_writeText (d : Dialect) (ascii : Bool) (s : String) (rest : List Char) :
    readText? d (s.toList.flatMap (escapeChar ascii) ++ '"' :: rest) = some (s, rest) := by
  have hlength := length_le_escapes ascii s.toList
  have hfuel : s.toList.length
      < (s.toList.flatMap (escapeChar ascii) ++ '"' :: rest).length + 1 := by
    rw [List.length_append]
    omega
  rw [readText?, readTextTail_escapes d ascii s.toList rest hfuel]
  show some (String.ofList s.toList, rest) = some (s, rest)
  rw [String.ofList_toList]

end Conveyor.Json
