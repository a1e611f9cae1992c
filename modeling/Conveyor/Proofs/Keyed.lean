import Conveyor.Keyed

/-!
# Keyed lists without repeated names

A list in which no name occurs twice is built from its own pairs, and its values are found in any
order of its pairs.
-/

namespace Conveyor.Keyed

variable {α β : Type}

theorem put_of_not_mem {key : String} (value : α) {m : Keyed α} (h : key ∉ m.keys) :
    put key value m = m ++ [(key, value)] := by
  induction m with
  | nil => rfl
  | cons head rest ih =>
    obtain ⟨k, v⟩ := head
    rw [keys, List.map_cons, List.mem_cons, not_or] at h
    rw [put, if_neg (Ne.symm h.1), ih h.2, List.cons_append]

theorem foldl_put (m pairs : Keyed α) (h : (m ++ pairs).keys.Nodup) :
    pairs.foldl (fun m (k, v) => put k v m) m = m ++ pairs := by
  induction pairs generalizing m with
  | nil => exact (List.append_nil m).symm
  | cons head rest ih =>
    obtain ⟨k, v⟩ := head
    have hsplit : m ++ (k, v) :: rest = m ++ [(k, v)] ++ rest := by
      rw [List.append_assoc, List.singleton_append]
    have hnew : k ∉ m.keys := by
      intro hmem
      rw [keys, List.map_append, List.nodup_append] at h
      exact h.2.2 k hmem k List.mem_cons_self rfl
    rw [List.foldl_cons]
    show rest.foldl _ (put k v m) = _
    rw [put_of_not_mem v hnew, ih _ (by rw [← hsplit]; exact h), hsplit]

/-- Pairs of different names are kept as they are. -/
theorem ofPairs_eq {pairs : Keyed α} (h : pairs.keys.Nodup) : ofPairs pairs = pairs :=
  foldl_put [] pairs h

theorem mem_of_mem_put {key : String} {value : α} {m : Keyed α} {f : String × α}
    (h : f ∈ put key value m) : f = (key, value) ∨ f ∈ m := by
  by_cases hkey : key ∈ m.keys
  · induction m with
    | nil => cases hkey
    | cons head rest ih =>
      obtain ⟨k, v⟩ := head
      rw [put] at h
      split at h
      · rename_i hk
        rcases List.mem_cons.mp h with rfl | hrest
        · exact .inl (by rw [hk])
        · exact .inr (.tail _ hrest)
      · rename_i hk
        rcases List.mem_cons.mp h with rfl | hrest
        · exact .inr List.mem_cons_self
        · have hmem : key ∈ keys rest := (List.mem_cons.mp hkey).resolve_left (Ne.symm hk)
          exact (ih hrest hmem).imp_right (.tail _)
  · rw [put_of_not_mem value hkey, List.mem_append, List.mem_singleton] at h
    exact h.symm

theorem keys_put_of_mem {key : String} (value : α) {m : Keyed α} (h : key ∈ m.keys) :
    (put key value m).keys = m.keys := by
  induction m with
  | nil => cases h
  | cons head rest ih =>
    obtain ⟨k, v⟩ := head
    rw [put]
    split
    · rfl
    · rename_i hk
      have hmem : key ∈ keys rest := (List.mem_cons.mp h).resolve_left (Ne.symm hk)
      exact congrArg (k :: ·) (ih hmem)

theorem nodup_keys_put (key : String) (value : α) {m : Keyed α} (h : m.keys.Nodup) :
    (put key value m).keys.Nodup := by
  by_cases hkey : key ∈ m.keys
  · rwa [keys_put_of_mem value hkey]
  · rw [put_of_not_mem value hkey, keys, List.map_append, List.nodup_append]
    refine ⟨h, List.pairwise_singleton _ key, fun a ha b hb heq => hkey ?_⟩
    obtain rfl : b = key := List.mem_singleton.mp hb
    exact heq ▸ ha

theorem mem_of_mem_erase {key : String} {m : Keyed α} {f : String × α} (h : f ∈ erase key m) :
    f ∈ m := by
  induction m with
  | nil => cases h
  | cons head rest ih =>
    obtain ⟨k, v⟩ := head
    rw [erase] at h
    split at h
    · exact List.mem_cons_of_mem _ h
    · rcases List.mem_cons.mp h with rfl | hrest
      · exact List.mem_cons_self
      · exact List.mem_cons_of_mem _ (ih hrest)

theorem nodup_keys_erase (key : String) {m : Keyed α} (h : m.keys.Nodup) :
    (erase key m).keys.Nodup := by
  induction m with
  | nil => exact h
  | cons head rest ih =>
    obtain ⟨k, v⟩ := head
    rw [keys, List.map_cons, List.nodup_cons] at h
    rw [erase]
    split
    · exact h.2
    · rw [keys, List.map_cons, List.nodup_cons]
      refine ⟨fun hmem => h.1 ?_, ih h.2⟩
      obtain ⟨f, hf, hk⟩ := List.mem_map.mp hmem
      exact List.mem_map.mpr ⟨f, mem_of_mem_erase hf, hk⟩

theorem fst_ne_of_not_mem {key : String} {m : Keyed α} (h : key ∉ m.keys) {p : String × α}
    (hp : p ∈ m) : p.1 ≠ key := fun heq => h (heq ▸ List.mem_map.mpr ⟨p, hp, rfl⟩)

theorem erase_eq_filter {key : String} {m : Keyed α} (h : m.keys.Nodup) :
    erase key m = m.filter fun p => p.1 ≠ key := by
  induction m with
  | nil => rfl
  | cons head rest ih =>
    obtain ⟨k, v⟩ := head
    rw [keys, List.map_cons, List.nodup_cons] at h
    rw [erase]
    by_cases hk : k = key
    · subst hk
      have hrest : rest.filter (fun p => p.1 ≠ k) = rest :=
        List.filter_eq_self.mpr fun p hp => decide_eq_true (fst_ne_of_not_mem h.1 hp)
      simpa using hrest.symm
    · simp [hk, ih h.2]

/-- Names that are erased one after the other are gone. -/
theorem foldl_erase {m : Keyed α} (h : m.keys.Nodup) (names : List String) :
    names.foldl (fun m name => erase name m) m = m.filter fun p => p.1 ∉ names := by
  induction names generalizing m with
  | nil => exact (List.filter_eq_self.mpr fun p _ => by simp).symm
  | cons name names ih =>
    rw [List.foldl_cons, ih (nodup_keys_erase name h), erase_eq_filter h, List.filter_filter]
    refine List.filter_congr fun p _ => ?_
    simp [Bool.and_comm]

theorem put_eq_map {key : String} (value : α) {m : Keyed α} (h : m.keys.Nodup)
    (hmem : key ∈ m.keys) :
    put key value m = m.map fun p => if p.1 = key then (key, value) else p := by
  induction m with
  | nil => cases hmem
  | cons head rest ih =>
    obtain ⟨k, v⟩ := head
    rw [keys, List.map_cons, List.nodup_cons] at h
    rw [put]
    by_cases hk : k = key
    · subst hk
      have hrest : rest.map (fun p => if p.1 = k then (k, value) else p) = rest :=
        (List.map_congr_left fun p hp => if_neg (fst_ne_of_not_mem h.1 hp)).trans
          (List.map_id rest)
      simp [hrest]
    · have hkey : key ∈ keys rest := (List.mem_cons.mp hmem).resolve_left (Ne.symm hk)
      simp [hk, ih h.2 hkey]

/-- Pairs are bound under different names, and nothing else is. -/
theorem ofPairs_spec (pairs : List (String × α)) :
    (ofPairs pairs).keys.Nodup ∧ ∀ f ∈ ofPairs pairs, f ∈ pairs := by
  have hfold : ∀ pairs m : Keyed α, m.keys.Nodup →
      (pairs.foldl (fun m (k, v) => put k v m) m).keys.Nodup ∧
        ∀ f ∈ pairs.foldl (fun m (k, v) => put k v m) m, f ∈ m ∨ f ∈ pairs := by
    intro pairs
    induction pairs with
    | nil => exact fun m h => ⟨h, fun f hf => .inl hf⟩
    | cons head rest ih =>
      intro m h
      obtain ⟨hkeys, hmem⟩ := ih (put head.1 head.2 m) (nodup_keys_put head.1 head.2 h)
      refine ⟨hkeys, fun f hf => ?_⟩
      rcases hmem f hf with hput | hrest
      · rcases mem_of_mem_put hput with rfl | hm
        · exact .inr List.mem_cons_self
        · exact .inl hm
      · exact .inr (.tail _ hrest)
  obtain ⟨hkeys, hmem⟩ := hfold pairs [] List.nodup_nil
  exact ⟨hkeys, fun f hf => (hmem f hf).resolve_left List.not_mem_nil⟩

/-! ## Finding values -/

theorem mem_of_get? {m : Keyed α} {key : String} {value : α} (h : get? key m = some value) :
    (key, value) ∈ m := by
  induction m with
  | nil => cases h
  | cons head rest ih =>
    obtain ⟨k, v⟩ := head
    rw [get?] at h
    split at h
    · rename_i hk
      rw [hk, Option.some.inj h]
      exact List.mem_cons_self
    · exact List.mem_cons_of_mem _ (ih h)

theorem get?_eq_some_iff {m : Keyed α} (h : m.keys.Nodup) {key : String} {value : α} :
    get? key m = some value ↔ (key, value) ∈ m := by
  induction m with
  | nil => simp [get?]
  | cons head rest ih =>
    obtain ⟨k, v⟩ := head
    rw [keys, List.map_cons, List.nodup_cons] at h
    rw [get?, List.mem_cons, Prod.mk.injEq]
    by_cases hk : k = key
    · subst hk
      rw [if_pos rfl, Option.some.injEq]
      constructor
      · rintro rfl
        exact .inl ⟨rfl, rfl⟩
      · rintro (⟨-, rfl⟩ | hmem)
        · rfl
        · exact absurd (List.mem_map_of_mem (f := (·.1)) hmem) h.1
    · rw [if_neg hk, ih h.2]
      constructor
      · exact .inr
      · rintro (⟨rfl, -⟩ | hmem)
        · exact absurd rfl hk
        · exact hmem

theorem get?_eq_none_iff {m : Keyed α} {key : String} : get? key m = none ↔ key ∉ m.keys := by
  induction m with
  | nil => simp [get?, keys]
  | cons head rest ih =>
    obtain ⟨k, v⟩ := head
    rw [get?, keys, List.map_cons, List.mem_cons, not_or]
    by_cases hk : k = key
    · simp [hk]
    · rw [if_neg hk, ih]
      exact ⟨fun h => ⟨Ne.symm hk, h⟩, And.right⟩

/-- A name that occurs once is gone with its value. -/
theorem get?_erase_same {m : Keyed α} (h : m.keys.Nodup) (key : String) :
    get? key (erase key m) = none := by
  induction m with
  | nil => rfl
  | cons head rest ih =>
    obtain ⟨k, v⟩ := head
    rw [keys, List.map_cons, List.nodup_cons] at h
    rw [erase]
    split
    · rename_i hk
      exact get?_eq_none_iff.mpr (hk ▸ h.1)
    · rename_i hk
      rw [get?, if_neg hk, ih h.2]

theorem get?_erase_other {key other : String} (m : Keyed α) (h : other ≠ key) :
    get? other (erase key m) = get? other m := by
  induction m with
  | nil => rfl
  | cons head rest ih =>
    obtain ⟨k, v⟩ := head
    by_cases hk : k = key
    · simp [erase, get?, hk, Ne.symm h]
    · simp [erase, get?, hk, ih]

theorem nodup_keys_perm {m m' : Keyed α} (hperm : m.Perm m') (h : m.keys.Nodup) :
    m'.keys.Nodup :=
  (hperm.map fun p : String × α => p.1).nodup_iff.mp h

/-- A value is found in any order of the pairs. -/
theorem get?_perm {m m' : Keyed α} (hperm : m.Perm m') (h : m.keys.Nodup) (key : String) :
    get? key m = get? key m' := by
  have h' := nodup_keys_perm hperm h
  apply Option.ext
  intro value
  rw [get?_eq_some_iff h, get?_eq_some_iff h', hperm.mem_iff]

/-! ## The order of names -/

theorem sorted_perm (m : Keyed α) : m.sorted.Perm m := List.mergeSort_perm _ _

theorem nodup_keys_sorted {m : Keyed α} (h : m.keys.Nodup) : m.sorted.keys.Nodup :=
  nodup_keys_perm (sorted_perm m).symm h

/-- The order by names. -/
def precedes (a b : String × α) : Bool := !(b.1 < a.1 : Bool)

theorem precedes_iff (a b : String × α) : precedes a b = true ↔ a.1 ≤ b.1 := by
  rw [precedes, Bool.not_eq_true', decide_eq_false_iff_not, String.not_lt]

theorem pairwise_sorted (m : Keyed α) : m.sorted.Pairwise fun a b => precedes a b = true := by
  apply List.pairwise_mergeSort
  · intro a b c hab hbc
    rw [precedes_iff] at hab hbc ⊢
    exact String.le_trans hab hbc
  · intro a b
    rw [Bool.or_eq_true, precedes_iff, precedes_iff]
    exact String.le_total a.1 b.1

/-- A list in the order of its names is kept as it is. -/
theorem sorted_of_pairwise {m : Keyed α} (h : m.Pairwise fun a b => precedes a b = true) :
    m.sorted = m := List.mergeSort_of_pairwise h

/-- There is one order of different names. -/
theorem sorted_eq {m m' : Keyed α} (hperm : m'.Perm m) (hkeys : m'.keys.Nodup)
    (hpairs : m'.Pairwise fun a b => precedes a b = true) : m.sorted = m' := by
  refine List.Perm.eq_of_pairwise (fun a b ha hb hab hba => ?_) (pairwise_sorted m) hpairs
    ((sorted_perm m).trans hperm.symm)
  have hname : a.1 = b.1 :=
    String.le_antisymm ((precedes_iff a b).mp hab) ((precedes_iff b a).mp hba)
  have hmem : (a.1, a.2) ∈ m' := hperm.mem_iff.mpr ((sorted_perm m).mem_iff.mp ha)
  have hvalue := (get?_eq_some_iff hkeys).mpr hmem
  rw [hname, (get?_eq_some_iff hkeys).mpr hb] at hvalue
  exact Prod.ext hname (Option.some.inj hvalue).symm

theorem sorted_sorted (m : Keyed α) : m.sorted.sorted = m.sorted :=
  sorted_of_pairwise (pairwise_sorted m)

theorem get?_sorted {m : Keyed α} (h : m.keys.Nodup) (key : String) :
    get? key m.sorted = get? key m :=
  get?_perm (sorted_perm m) (nodup_keys_sorted h) key

/-- Lists in which every name has the same value hold the same pairs. -/
theorem perm_of_get? {m m' : Keyed α} (h : m.keys.Nodup) (h' : m'.keys.Nodup)
    (hget : ∀ key, get? key m = get? key m') : m.Perm m' := by
  have hpairs : ∀ m : Keyed α, m.keys.Nodup → m.Nodup := fun m h =>
    List.Pairwise.of_map (·.1) (fun _ _ hne heq => hne (congrArg (·.1) heq)) h
  refine (List.perm_ext_iff_of_nodup (hpairs m h) (hpairs m' h')).mpr ?_
  rintro ⟨key, value⟩
  rw [← get?_eq_some_iff h, ← get?_eq_some_iff h', hget]

/-- Lists are the same in order when every name has the same value in both. -/
theorem sorted_eq_sorted_iff {m m' : Keyed α} (h : m.keys.Nodup) (h' : m'.keys.Nodup) :
    m.sorted = m'.sorted ↔ ∀ key, get? key m = get? key m' := by
  constructor
  · intro heq key
    rw [← get?_sorted h, heq, get?_sorted h']
  · intro hget
    have hperm := (sorted_perm m').trans (perm_of_get? h h' hget).symm
    exact sorted_eq hperm (nodup_keys_sorted h') (pairwise_sorted m')

theorem keys_mapValues (f : α → β) (m : Keyed α) : (m.mapValues f).keys = m.keys := by
  simp [keys, mapValues]

/-- Values are replaced before or after the names are put in order. -/
theorem sorted_mapValues (f : α → β) (m : Keyed α) :
    (m.mapValues f).sorted = m.sorted.mapValues f := by
  unfold sorted mapValues
  symm
  apply List.map_mergeSort
  intro a _ b _
  rfl

theorem get?_mapValues (f : α → β) (m : Keyed α) (key : String) :
    get? key (m.mapValues f) = (get? key m).map f := by
  induction m with
  | nil => rfl
  | cons head rest ih =>
    obtain ⟨k, v⟩ := head
    rw [mapValues, List.map_cons, get?, get?]
    split
    · rfl
    · exact ih

end Conveyor.Keyed
