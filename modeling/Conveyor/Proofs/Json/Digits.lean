import Mathlib.Algebra.Group.Nat.Defs
import Conveyor.Json.Reader
import Conveyor.Binary64.Shortest

/-!
# Digits

A natural number is written in the decimal digits that the reader reads back as the number, and the
reader takes all of a run of digits and nothing more.
-/

namespace Conveyor

theorem ofNat_eq_digitChar : ∀ d < 10, Char.ofNat (48 + d) = d.digitChar := by decide

/-- The digits of a number are put in front of what comes after them. -/
theorem decimalDigitsAux_eq {fuel n : Nat} (acc : List Char) (h : n < 2 ^ (fuel + 1)) :
    decimalDigitsAux (fuel + 1) n acc = Nat.toDigits 10 n ++ acc := by
  have hdigit : Char.ofNat (48 + n % 10) = (n % 10).digitChar :=
    ofNat_eq_digitChar _ (Nat.mod_lt _ (by decide))
  induction fuel generalizing n acc with
  | zero =>
    have hn : n < 10 := by omega
    rw [decimalDigitsAux, hdigit, if_pos hn, Nat.toDigits_of_lt_base hn, Nat.mod_eq_of_lt hn]
    rfl
  | succ fuel ih =>
    rw [decimalDigitsAux, hdigit]
    by_cases hn : n < 10
    · rw [if_pos hn, Nat.toDigits_of_lt_base hn, Nat.mod_eq_of_lt hn]
      rfl
    · have hnext : Char.ofNat (48 + n / 10 % 10) = (n / 10 % 10).digitChar :=
        ofNat_eq_digitChar _ (Nat.mod_lt _ (by decide))
      rw [if_neg hn, ih _ (by omega) hnext,
        Nat.toDigits_of_base_le (n := n) (by decide) (by omega)]
      simp

theorem decimalDigits_eq (n : Nat) : decimalDigits n = Nat.toDigits 10 n := by
  rw [decimalDigits, decimalDigitsAux_eq [] Nat.lt_log2_self, List.append_nil]

theorem decimalDigits_ne_nil (n : Nat) : decimalDigits n ≠ [] := by
  rw [decimalDigits_eq]
  exact Nat.toDigits_ne_nil

/-- The digits of a positive number do not start with zero. -/
theorem head?_decimalDigits {n : Nat} (h : 0 < n) : (decimalDigits n).head? ≠ some '0' := by
  rw [decimalDigits_eq]
  induction n using Nat.strongRecOn with
  | ind n ih =>
    by_cases hn : n < 10
    · rw [Nat.toDigits_of_lt_base hn, List.head?_cons, ne_eq, Option.some.injEq,
        Nat.digitChar_eq_zero]
      omega
    · have hfront := ih (n / 10) (by omega) (by omega)
      rw [Nat.toDigits_of_base_le (by decide) (by omega), List.head?_append]
      cases hhead : (Nat.toDigits 10 (n / 10)).head? with
      | none => exact absurd (List.head?_eq_none_iff.mp hhead) Nat.toDigits_ne_nil
      | some c =>
        rw [hhead] at hfront
        exact hfront

namespace Json

theorem isAsciiDigit_eq (c : Char) : isAsciiDigit c = c.isDigit := by
  unfold isAsciiDigit Char.isDigit
  rfl

theorem all_isAsciiDigit (n : Nat) : ∀ c ∈ decimalDigits n, isAsciiDigit c = true := by
  intro c hc
  rw [decimalDigits_eq] at hc
  rw [isAsciiDigit_eq]
  exact Nat.isDigit_of_mem_toDigits (by decide) (by decide) hc

theorem numberOf_eq (ds : List Char) : numberOf ds = Nat.ofDigitChars 10 ds 0 := by
  rw [numberOf, Text.ofDigits, List.foldl_map]
  rfl

/-- Digits of zero after a number multiply it. -/
theorem numberOf_append_zeros (ds : List Char) (n : Nat) :
    numberOf (ds ++ List.replicate n '0') = numberOf ds * 10 ^ n := by
  rw [numberOf_eq, numberOf_eq, Nat.ofDigitChars_append, Nat.ofDigitChars_replicate_zero,
    Nat.mul_comm]

theorem numberOf_zeros_append (n : Nat) (ds : List Char) :
    numberOf (List.replicate n '0' ++ ds) = numberOf ds := by
  rw [numberOf_eq, numberOf_eq, Nat.ofDigitChars_append, Nat.ofDigitChars_replicate_zero,
    Nat.mul_zero]

/-- A number is read back from its digits. -/
theorem numberOf_decimalDigits (n : Nat) : numberOf (decimalDigits n) = n := by
  rw [numberOf_eq, decimalDigits_eq, Nat.ofDigitChars_ten_toDigits]

/-- The text does not go on with a digit. -/
def EndsDigits (rest : List Char) : Prop := ∀ c, rest.head? = some c → isAsciiDigit c = false

theorem takeWhile_digits {ds rest : List Char} (hds : ∀ c ∈ ds, isAsciiDigit c = true)
    (hrest : EndsDigits rest) : (ds ++ rest).takeWhile isAsciiDigit = ds := by
  induction ds with
  | nil =>
    cases rest with
    | nil => rfl
    | cons c rest => rw [List.nil_append, List.takeWhile_cons, hrest c rfl]; rfl
  | cons d ds ih =>
    rw [List.cons_append, List.takeWhile_cons, hds d List.mem_cons_self, if_pos rfl,
      ih fun c hc => hds c (List.mem_cons_of_mem _ hc)]

theorem dropWhile_digits {ds rest : List Char} (hds : ∀ c ∈ ds, isAsciiDigit c = true)
    (hrest : EndsDigits rest) : (ds ++ rest).dropWhile isAsciiDigit = rest := by
  have happend := List.takeWhile_append_dropWhile (p := isAsciiDigit) (l := ds ++ rest)
  rw [takeWhile_digits hds hrest] at happend
  exact List.append_cancel_left happend

end Json
end Conveyor
