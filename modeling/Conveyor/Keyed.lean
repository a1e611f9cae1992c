/-!
# Keyed lists

Finite maps from names, kept in the order in which the names were first given. A name given again
keeps its place and takes the new value.
-/

namespace Conveyor

/-- Values under names, in insertion order. -/
abbrev Keyed (α : Type) := List (String × α)

namespace Keyed

variable {α β : Type}

def get? (key : String) : Keyed α → Option α
  | [] => none
  | (k, v) :: rest => if k = key then some v else get? key rest

def has (m : Keyed α) (key : String) : Bool := (get? key m).isSome

/-- The map with `key` bound to `value`, in the place of its earlier binding or at the end. -/
def put (key : String) (value : α) : Keyed α → Keyed α
  | [] => [(key, value)]
  | (k, v) :: rest => if k = key then (k, value) :: rest else (k, v) :: put key value rest

/-- The map without a binding of `key`. -/
def erase (key : String) : Keyed α → Keyed α
  | [] => []
  | (k, v) :: rest => if k = key then rest else (k, v) :: erase key rest

/-- Bind one after another; a later binding of a name wins and keeps the place of the first. -/
def ofPairs (pairs : List (String × α)) : Keyed α :=
  pairs.foldl (fun m (k, v) => put k v m) []

/-- Both maps; where both bind a name, the second wins and the first gives the place. -/
def merge (m other : Keyed α) : Keyed α := other.foldl (fun acc (k, v) => put k v acc) m

def keys (m : Keyed α) : List String := m.map (·.1)

def mapValues (f : α → β) (m : Keyed α) : Keyed β := m.map fun (k, v) => (k, f v)

/-- The bindings in the order of their names. -/
def sorted (m : Keyed α) : Keyed α := m.mergeSort fun a b => !(b.1 < a.1 : Bool)

theorem get?_put_same (key : String) (value : α) (m : Keyed α) :
    get? key (put key value m) = some value := by
  induction m with
  | nil => simp [put, get?]
  | cons head rest ih =>
    obtain ⟨k, v⟩ := head
    by_cases h : k = key <;> simp [put, get?, h, ih]

theorem get?_put_other {key other : String} (value : α) (m : Keyed α) (h : other ≠ key) :
    get? other (put key value m) = get? other m := by
  induction m with
  | nil => simp [put, get?, Ne.symm h]
  | cons head rest ih =>
    obtain ⟨k, v⟩ := head
    by_cases hk : k = key
    · simp [put, get?, hk, Ne.symm h]
    · simp [put, get?, hk, ih]

end Keyed
end Conveyor
