import Conveyor.Moment.Iso
import Conveyor.Proofs.Json.Digits

/-!
# Numbers of a fixed width

A number that is padded to a width is written by its last digits. Numbers of one width are in the
order of their texts, and are read back from them.
-/

namespace Conveyor.Moment

/-- The last digits of a number. -/
def lastDigits : Nat → Nat → List Char
  | 0, _ => []
  | width + 1, n => lastDigits width (n / 10) ++ [(n % 10).digitChar]

theorem length_lastDigits (width n : Nat) : (lastDigits width n).length = width := by
  induction width generalizing n with
  | zero => rfl
  | succ width ih => rw [lastDigits, List.length_append, ih, List.length_singleton]

theorem isDigit_digitChar : ∀ d < 10, isDigit d.digitChar = true := by decide

theorem digitChar_ne {d : Nat} (h : d < 10) {c : Char} (hc : isDigit c = false) :
    d.digitChar ≠ c := by
  rintro rfl
  rw [isDigit_digitChar d h] at hc
  cases hc

theorem isDigit_of_mem_lastDigits {width n : Nat} {c : Char} (h : c ∈ lastDigits width n) :
    isDigit c = true := by
  induction width generalizing n with
  | zero => cases h
  | succ width ih =>
    rcases List.mem_append.mp h with hinit | hlast
    · exact ih hinit
    · rw [List.mem_singleton.mp hlast]
      exact isDigit_digitChar _ (Nat.mod_lt _ (by decide))

theorem lastDigits_zero (width : Nat) : lastDigits width 0 = List.replicate width '0' := by
  induction width with
  | zero => rfl
  | succ width ih =>
    rw [lastDigits, List.replicate_succ', ← ih]
    rfl

theorem padded_eq_toDigits (width n : Nat) : padded width n =
    List.replicate (width - (Nat.toDigits 10 n).length) '0' ++ Nat.toDigits 10 n := by
  rw [padded, decimalDigits_eq]

theorem padded_eq {width n : Nat} (hwidth : 0 < width) (h : n < 10 ^ width) :
    padded width n = lastDigits width n := by
  obtain ⟨width, rfl⟩ := Nat.exists_eq_add_of_le' hwidth
  induction width generalizing n with
  | zero =>
    have hn : n < 10 := h
    rw [padded_eq_toDigits, Nat.toDigits_of_lt_base hn, lastDigits, Nat.mod_eq_of_lt hn]
    rfl
  | succ width ih =>
    rw [padded_eq_toDigits, lastDigits]
    by_cases hn : n < 10
    · rw [Nat.toDigits_of_lt_base hn, Nat.div_eq_of_lt hn, lastDigits_zero, Nat.mod_eq_of_lt hn]
      rfl
    · have hfront : n / 10 < 10 ^ (width + 1) :=
        Nat.div_lt_of_lt_mul (by rwa [Nat.pow_succ'] at h)
      rw [Nat.toDigits_of_base_le (by decide) (by omega), ← ih (Nat.succ_pos _) hfront,
        padded_eq_toDigits, List.length_append, List.length_singleton, Nat.add_right_comm,
        Nat.add_sub_add_right, List.append_assoc]

/-- A number that fills the width needs no zeros. -/
theorem decimalDigits_eq_lastDigits {width n : Nat} (h : 10 ^ width ≤ n)
    (h' : n < 10 ^ (width + 1)) : decimalDigits n = lastDigits (width + 1) n := by
  have hlength : width + 1 ≤ (decimalDigits n).length := by
    cases width with
    | zero => exact List.length_pos_iff.mpr (decimalDigits_ne_nil n)
    | succ width =>
      rw [decimalDigits_eq]
      exact Nat.lt_of_not_le fun hle => Nat.not_lt.mpr h
        ((Nat.length_toDigits_le_iff (by decide) (Nat.succ_pos _)).mp hle)
  rw [← padded_eq (Nat.succ_pos _) h', padded, Nat.sub_eq_zero_of_le hlength]
  rfl

/-! ## Order -/

theorem digitChar_lt : ∀ d < 10, ∀ e < 10, d < e → d.digitChar < e.digitChar := by decide

theorem append_lt_append {a b s t : List Char} (hlength : a.length = b.length) (h : a < b) :
    a ++ s < b ++ t := by
  induction a generalizing b with
  | nil =>
    obtain rfl := List.length_eq_zero_iff.mp hlength.symm
    exact absurd h (List.lt_irrefl _)
  | cons c a ih =>
    cases b with
    | nil => cases hlength
    | cons d b =>
      refine List.cons_lt_cons_iff.mpr ((List.cons_lt_cons_iff.mp h).imp_right ?_)
      exact fun ⟨hhead, htail⟩ => ⟨hhead, ih (Nat.succ.inj hlength) htail⟩

/-- Texts that start alike are in the order of what comes after. -/
theorem append_cons_lt (a : List Char) (c : Char) {s t : List Char} (h : s < t) :
    a ++ c :: s < a ++ c :: t :=
  List.append_left_lt (List.cons_lt_cons_iff.mpr (.inr ⟨rfl, h⟩))

theorem lastDigits_lt {width a b : Nat} (h : a < b) (hb : b < 10 ^ width) :
    lastDigits width a < lastDigits width b := by
  induction width generalizing a b with
  | zero => omega
  | succ width ih =>
    have hfront : b / 10 < 10 ^ width := Nat.div_lt_of_lt_mul (by rwa [Nat.pow_succ'] at hb)
    rw [lastDigits, lastDigits]
    by_cases hten : a / 10 < b / 10
    · refine append_lt_append ?_ (ih hten hfront)
      rw [length_lastDigits, length_lastDigits]
    · have hsame : a / 10 = b / 10 := by omega
      rw [hsame]
      refine List.append_left_lt (List.cons_lt_cons_iff.mpr (.inl ?_))
      exact digitChar_lt _ (Nat.mod_lt _ (by decide)) _ (Nat.mod_lt _ (by decide)) (by omega)

/-- A smaller number makes a text smaller, whatever comes after it. -/
theorem lastDigits_append_lt {width a b : Nat} (h : a < b) (hb : b < 10 ^ width)
    (s t : List Char) : lastDigits width a ++ s < lastDigits width b ++ t :=
  append_lt_append (by rw [length_lastDigits, length_lastDigits]) (lastDigits_lt h hb)

/-! ## Reading -/

theorem digitChar_toNat : ∀ d < 10, d.digitChar.toNat - 48 = d := by decide

/-- The number that a run of digits goes on to write. -/
def valueFrom (acc : Nat) (ds : List Char) : Nat :=
  ds.foldl (fun n c => n * 10 + (c.toNat - 48)) acc

theorem readDigits?_append {ds : List Char} (h : ∀ c ∈ ds, isDigit c = true) (acc : Nat)
    (rest : List Char) : readDigits? ds.length acc (ds ++ rest) = some (valueFrom acc ds, rest) := by
  induction ds generalizing acc with
  | nil => rfl
  | cons c ds ih =>
    obtain ⟨hc, hds⟩ := List.forall_mem_cons.mp h
    rw [List.length_cons, List.cons_append, readDigits?, if_pos hc]
    exact ih hds _

theorem valueFrom_lastDigits {width n : Nat} (h : n < 10 ^ width) :
    valueFrom 0 (lastDigits width n) = n := by
  induction width generalizing n with
  | zero => exact (Nat.lt_one_iff.mp h).symm
  | succ width ih =>
    have hfront : n / 10 < 10 ^ width := Nat.div_lt_of_lt_mul (by rwa [Nat.pow_succ'] at h)
    have hvalue : valueFrom 0 (lastDigits (width + 1) n) =
        valueFrom 0 (lastDigits width (n / 10)) * 10 + ((n % 10).digitChar.toNat - 48) :=
      List.foldl_append
    rw [hvalue, ih hfront, digitChar_toNat _ (Nat.mod_lt _ (by decide)), Nat.div_add_mod']

/-- A number is read back from its digits and the text goes on after them. -/
theorem readDigits?_lastDigits {width n : Nat} (h : n < 10 ^ width) (rest : List Char) :
    readDigits? width 0 (lastDigits width n ++ rest) = some (n, rest) := by
  have hdigits : ∀ c ∈ lastDigits width n, isDigit c = true := fun _ => isDigit_of_mem_lastDigits
  have hread := readDigits?_append hdigits 0 rest
  rwa [length_lastDigits, valueFrom_lastDigits h] at hread

theorem readDigits?_two {n : Nat} (h : n < 100) (rest : List Char) :
    readDigits? 2 0 (lastDigits 2 n ++ rest) = some (n, rest) := readDigits?_lastDigits h rest

end Conveyor.Moment
