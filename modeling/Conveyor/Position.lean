/-!
# Positions in lists

A position may be negative, and then counts from the end.
-/

namespace Conveyor

namespace Position

/-- The number of elements before a position, which may lie outside of the list. -/
def fromStart (length : Nat) (i : Int) : Int := if i < 0 then i + length else i

/-- The place of an element; none if there is no such element. -/
def element? (length : Nat) (i : Int) : Option Nat :=
  let i := fromStart length i
  if 0 ≤ i ∧ i < length then some i.toNat else none

/-- The place between elements that is nearest to a position. -/
def gap (length : Nat) (i : Int) : Nat := min (fromStart length i).toNat length

theorem gap_le (length : Nat) (i : Int) : gap length i ≤ length := Nat.min_le_right _ _

theorem gap_of_le {length i : Nat} (h : i ≤ length) : gap length i = i := by
  unfold gap fromStart
  split <;> omega

theorem gap_lt {length : Nat} {i : Int} (h : -length ≤ i ∧ i < length) : gap length i < length := by
  unfold gap fromStart
  split <;> omega

/-- A position is one of an element unless it lies outside of the list. -/
theorem element?_eq (length : Nat) (i : Int) :
    element? length i = if -length ≤ i ∧ i < length then some (gap length i) else none := by
  unfold element? gap fromStart
  split
  · split
    · rw [if_pos (by omega), Nat.min_eq_left (by omega)]
    · rw [if_neg (by omega)]
  · split
    · rw [if_pos (by omega), Nat.min_eq_left (by omega)]
    · rw [if_neg (by omega)]

/-- The elements from one position up to another. -/
def slice {α : Type} (items : List α) (start stop : Int) : List α :=
  let first := gap items.length start
  (items.drop first).take (gap items.length stop - first)

theorem slice_of_nonneg {α : Type} (items : List α) {start count : Int} (h : 0 ≤ start)
    (h' : 0 ≤ count) :
    slice items start (start + count) = (items.drop start.toNat).take count.toNat := by
  have hfirst : gap items.length start = min start.toNat items.length := by
    unfold gap fromStart
    rw [if_neg (by omega)]
  have hlast : gap items.length (start + count) =
      min (start.toNat + count.toNat) items.length := by
    unfold gap fromStart
    rw [if_neg (by omega), Int.toNat_add h h']
  rw [slice, hfirst, hlast]
  by_cases hin : start.toNat ≤ items.length
  · rw [Nat.min_eq_left hin, List.take_eq_take_iff, List.length_drop]
    omega
  · rw [List.drop_of_length_le (by omega), List.drop_of_length_le (by omega), List.take_nil,
      List.take_nil]

end Position
end Conveyor
