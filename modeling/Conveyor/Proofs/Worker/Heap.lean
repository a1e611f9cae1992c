import Conveyor.Proofs.Binary64.Order
import Conveyor.Proofs.Worker.Scene

/-!
# The order in which alarms go off

As long as all alarms are set for times that are numbers, the heap has an earliest alarm at its top,
whatever is done with it. So alarms go off in the order of their times, and after a moment none is
left that is set for a time before its end.
-/

namespace Conveyor.Worker.Alarms

variable {α : Type} {h : Array (Alarm α)} {i j k top : Nat}

/-! ## Positions in the heap -/

theorem above_lt (hi : 0 < i) : above i < i := by
  unfold above
  omega

theorem above_le (i : Nat) : above i ≤ i := by
  unfold above
  omega

theorem above_eq_iff (hk : 0 < k) : above k = i ↔ k = 2 * i + 1 ∨ k = 2 * i + 2 := by
  unfold above
  omega

/-- The alarm at one position is not later than the one at another. -/
def NotLater (h : Array (Alarm α)) (i j : Nat) : Prop :=
  ∀ x y, h[i]? = some x → h[j]? = some y → x.wake.rank ≤ y.wake.rank

theorem notLater_refl (h : Array (Alarm α)) (i : Nat) : NotLater h i i := by
  intro x y hx hy
  rw [Option.some.inj (hx.symm.trans hy)]

theorem notLater_of_none (hj : h[j]? = none) : NotLater h i j := by
  intro x y _ hy
  rw [hj] at hy
  cases hy

/-- Every alarm below a position from `top` on is not earlier than the one above it. -/
def OrderedFrom (top : Nat) (h : Array (Alarm α)) : Prop :=
  ∀ k, top ≤ above k → NotLater h (above k) k

/-- All alarms are set for times that are numbers. -/
def Numeric (h : Array (Alarm α)) : Prop := ∀ x ∈ h, x.wake.isNan = false

theorem Numeric.perm {h h' : Array (Alarm α)} (hn : Numeric h) (perm : h'.Perm h) : Numeric h' :=
  fun x hx => hn x (perm.mem_iff.mp hx)

theorem Numeric.getElem? (hn : Numeric h) {x : Alarm α} (hx : h[i]? = some x) :
    x.wake.isNan = false := hn x (Array.mem_of_getElem? hx)

theorem getElem?_swap {x y : Alarm α} (hx : h[i]? = some x) (hy : h[j]? = some y) (k : Nat) :
    (h.swapIfInBounds i j)[k]? = if k = i then some y else if k = j then some x else h[k]? := by
  obtain ⟨hi, rfl⟩ := Array.getElem?_eq_some_iff.mp hx
  obtain ⟨hj, rfl⟩ := Array.getElem?_eq_some_iff.mp hy
  unfold Array.swapIfInBounds
  rw [dif_pos hi, dif_pos hj, Array.getElem?_swap]
  grind

theorem notLater_of_le {x y : Alarm α} (hx : h[i]? = some x) (hy : h[j]? = some y)
    (hle : x.wake.rank ≤ y.wake.rank) : NotLater h i j := by
  intro x' y' hx' hy'
  obtain rfl := Option.some.inj (hx.symm.trans hx')
  obtain rfl := Option.some.inj (hy.symm.trans hy')
  exact hle

/-- A position in the part of the heap below another one. -/
inductive Under (top : Nat) : Nat → Prop where
  | here : Under top top
  | down {k : Nat} (higher : Under top (above k)) : Under top k

theorem Under.le (hu : Under top i) : top ≤ i := by
  induction hu with
  | here => exact Nat.le_refl _
  | down _ ih => exact ih.trans (above_le _)

theorem Under.above (hu : Under top i) (hlt : top < i) : Under top (above i) := by
  cases hu with
  | here => exact absurd hlt (Nat.lt_irrefl _)
  | down higher => exact higher

/-! ## Rising -/

/-- All is in order, but the alarm at a position may be earlier than the one above it. -/
structure Rising (top i : Nat) (h : Array (Alarm α)) : Prop where
  others : ∀ k, k ≠ i → top ≤ above k → NotLater h (above k) k
  below : 0 < i → top ≤ above i → ∀ k, above k = i → NotLater h (above i) k

theorem Rising.ordered (hr : Rising top i h) (here : top ≤ above i → NotLater h (above i) i) :
    OrderedFrom top h := by
  intro k hk
  by_cases hki : k = i
  · subst hki
    exact here hk
  · exact hr.others k hki hk

/-- An alarm that is earlier than the one above it changes places with it. -/
theorem Rising.step (hr : Rising top i h) (hi : 0 < i) (htop : top ≤ above i) {x y : Alarm α}
    (hx : h[i]? = some x) (hy : h[above i]? = some y) (hlt : x.wake.rank < y.wake.rank) :
    Rising top (above i) (h.swapIfInBounds i (above i)) := by
  have hne : above i ≠ i := (above_lt hi).ne
  have hget := getElem?_swap hx hy
  have hat : (h.swapIfInBounds i (above i))[i]? = some y := by rw [hget, if_pos rfl]
  have hatAbove : (h.swapIfInBounds i (above i))[above i]? = some x := by
    rw [hget, if_neg hne, if_pos rfl]
  have hrest : ∀ {k}, k ≠ i → k ≠ above i → (h.swapIfInBounds i (above i))[k]? = h[k]? := by
    intro k hk hk'
    rw [hget, if_neg hk, if_neg hk']
  -- what stood beside the earlier alarm is not earlier than the later one
  have hbeside : ∀ {k b}, k ≠ i → above k = above i → h[k]? = some b → y.wake.rank ≤ b.wake.rank :=
    fun hk hkAbove hb => hr.others _ hk (hkAbove ▸ htop) y _ (hkAbove ▸ hy) hb
  constructor
  · intro k hk hkTop
    by_cases hki : k = i
    · subst hki
      exact notLater_of_le hatAbove hat hlt.le
    · intro a b ha hb
      rw [hrest hki hk] at hb
      by_cases hbelow : above k = i
      · rw [hbelow, hat] at ha
        obtain rfl := Option.some.inj ha
        exact hr.below hi htop k hbelow _ b hy hb
      · by_cases hside : above k = above i
        · rw [hside, hatAbove] at ha
          obtain rfl := Option.some.inj ha
          exact hlt.le.trans (hbeside hki hside hb)
        · rw [hrest hbelow hside] at ha
          exact hr.others k hki hkTop a b ha hb
  · intro hpos hfarTop k hk a b ha hb
    have hfar : above (above i) < above i := above_lt hpos
    rw [hrest (hfar.trans (above_lt hi)).ne hfar.ne] at ha
    have hup := hr.others (above i) hne hfarTop a y ha hy
    by_cases hki : k = i
    · subst hki
      rw [hat] at hb
      obtain rfl := Option.some.inj hb
      exact hup
    · have hkAbove : k ≠ above i := by
        rintro rfl
        exact hfar.ne hk
      rw [hrest hki hkAbove] at hb
      exact hup.trans (hbeside hki hk hb)

theorem ordered_rise (numeric : Numeric h) (fuel : Nat) (enough : i ≤ fuel) (under : Under top i)
    (hr : Rising top i h) : OrderedFrom top (rise h top fuel i) := by
  induction fuel generalizing h i with
  | zero =>
    obtain rfl := Nat.le_zero.mp enough
    exact hr.ordered fun _ => notLater_refl h 0
  | succ fuel ih =>
    unfold rise
    split
    · rename_i hle
      obtain rfl : top = i := Nat.le_antisymm under.le hle
      refine hr.ordered fun htop => ?_
      obtain rfl | hpos := Nat.eq_zero_or_pos top
      · exact notLater_refl h 0
      · exact absurd (above_lt hpos) (Nat.not_lt.mpr htop)
    · rename_i hgt
      have hpos : 0 < i := by omega
      have hunder := under.above (Nat.lt_of_not_le hgt)
      split
      · rename_i x y hx hy
        have hlt := Binary64.lt_iff (numeric.getElem? hx) (numeric.getElem? hy)
        split
        · rename_i hearlier
          have hless := above_lt hpos
          exact ih (numeric.perm (swapIfInBounds_perm _ _ _)) (by omega) hunder
            (hr.step hpos hunder.le hx hy (hlt.mp hearlier))
        · rename_i hnot
          exact hr.ordered fun _ => notLater_of_le hy hx (not_lt.mp fun hl => hnot (hlt.mpr hl))
      · rename_i hnone
        refine hr.ordered fun _ x y hx hy => ?_
        exact absurd hx (hnone y x hy)

/-! ## Sinking -/

/-- All is in order, but the alarm at a position may be later than those below it. -/
structure Sinking (top i : Nat) (h : Array (Alarm α)) : Prop where
  others : ∀ k, k ≠ i → above k ≠ i → top ≤ above k → NotLater h (above k) k
  below : top < i → ∀ k, above k = i → NotLater h (above i) k

/-- Where an alarm sinks to stands the earliest one below it. -/
theorem below?_eq_some (numeric : Numeric h) (hj : below? h i = some j) :
    above j = i ∧ i < j ∧ (∃ y, h[j]? = some y) ∧ ∀ k, 0 < k → above k = i → NotLater h j k := by
  have hsecond : h[2 * i + 1]? = none → h[2 * i + 2]? = none := by
    rw [Array.getElem?_eq_none_iff, Array.getElem?_eq_none_iff]
    omega
  unfold below? at hj
  split at hj
  · rename_i x y hx hy
    have hlt := Binary64.lt_iff (numeric.getElem? hx) (numeric.getElem? hy)
    split at hj
    · rename_i hearlier
      obtain rfl := Option.some.inj hj
      refine ⟨(above_eq_iff (by omega)).mpr (.inl rfl), by omega, ⟨x, hx⟩, fun k hk hkAbove => ?_⟩
      rcases (above_eq_iff hk).mp hkAbove with rfl | rfl
      · exact notLater_refl h _
      · exact notLater_of_le hx hy (hlt.mp hearlier).le
    · rename_i hnot
      obtain rfl := Option.some.inj hj
      refine ⟨(above_eq_iff (by omega)).mpr (.inr rfl), by omega, ⟨y, hy⟩, fun k hk hkAbove => ?_⟩
      rcases (above_eq_iff hk).mp hkAbove with rfl | rfl
      · exact notLater_of_le hy hx (not_lt.mp fun hl => hnot (hlt.mpr hl))
      · exact notLater_refl h _
  · rename_i x hx hy
    obtain rfl := Option.some.inj hj
    refine ⟨(above_eq_iff (by omega)).mpr (.inl rfl), by omega, ⟨x, hx⟩, fun k hk hkAbove => ?_⟩
    rcases (above_eq_iff hk).mp hkAbove with rfl | rfl
    · exact notLater_refl h _
    · exact notLater_of_none hy
  · cases hj

/-- An alarm changes places with the earliest one below it. -/
theorem Sinking.step (hs : Sinking top i h) (hj : above j = i) (hlt : i < j) {x y : Alarm α}
    (hx : h[i]? = some x) (hy : h[j]? = some y)
    (earliest : ∀ k, 0 < k → above k = i → NotLater h j k) :
    Sinking top j (h.swapIfInBounds i j) := by
  have hget := getElem?_swap hx hy
  have hat : (h.swapIfInBounds i j)[i]? = some y := by rw [hget, if_pos rfl]
  have hrest : ∀ {k}, k ≠ i → k ≠ j → (h.swapIfInBounds i j)[k]? = h[k]? := by
    intro k hk hk'
    rw [hget, if_neg hk, if_neg hk']
  constructor
  · intro k hk hkAbove hkTop
    by_cases hki : k = i
    · subst hki
      obtain rfl | hpos := Nat.eq_zero_or_pos k
      · exact notLater_refl _ 0
      · -- the earliest one below it is not earlier than what stands above
        intro a b ha hb
        have hless := above_lt hpos
        rw [hrest hless.ne hkAbove] at ha
        rw [hat] at hb
        obtain rfl := Option.some.inj hb
        exact hs.below (by omega) j hj a _ ha hy
    · intro a b ha hb
      rw [hrest hki hk] at hb
      by_cases hbeside : above k = i
      · rw [hbeside, hat] at ha
        obtain rfl := Option.some.inj ha
        have hpos : 0 < k := Nat.pos_of_ne_zero fun hzero => hki (by rw [← hbeside, hzero]; rfl)
        exact earliest k hpos hbeside _ b hy hb
      · rw [hrest hbeside hkAbove] at ha
        exact hs.others k hki hbeside hkTop a b ha hb
  · intro hjTop k hk a b ha hb
    have hless := above_le k
    have hkj : k ≠ j := by
      rintro rfl
      omega
    rw [hj, hat] at ha
    obtain rfl := Option.some.inj ha
    rw [hrest (by omega) hkj] at hb
    refine hs.others k (by omega) (by omega) ?_ _ b (hk.symm ▸ hy) hb
    omega

/-- An alarm at the bottom can rise again. -/
theorem Sinking.rising (hs : Sinking top i h) (bottom : ∀ k, 0 < k → above k = i → h[k]? = none) :
    Rising top i h where
  others k hk hkTop := by
    by_cases hkAbove : above k = i
    · have hpos : 0 < k := Nat.pos_of_ne_zero fun hzero => hk (by rw [← hkAbove, hzero]; rfl)
      exact notLater_of_none (bottom k hpos hkAbove)
    · exact hs.others k hk hkAbove hkTop
  below hi _ k hk := by
    have hpos : 0 < k := Nat.pos_of_ne_zero fun hzero => hi.ne (by rw [← hk, hzero]; rfl)
    exact notLater_of_none (bottom k hpos hk)

theorem rising_sink (numeric : Numeric h) (fuel : Nat) (enough : h.size ≤ i + fuel)
    (under : Under top i) (hs : Sinking top i h) :
    Rising top (sink h fuel i).2 (sink h fuel i).1 ∧ Under top (sink h fuel i).2 := by
  have hbottom : h[2 * i + 1]? = none → ∀ k, 0 < k → above k = i → h[k]? = none := by
    intro hnone k hpos hk
    rw [Array.getElem?_eq_none_iff] at hnone ⊢
    rcases (above_eq_iff hpos).mp hk with rfl | rfl
    · exact hnone
    · omega
  induction fuel generalizing h i with
  | zero =>
    refine ⟨hs.rising (hbottom ?_), under⟩
    rw [Array.getElem?_eq_none_iff]
    omega
  | succ fuel ih =>
    unfold sink
    split
    · rename_i j hj
      obtain ⟨hjAbove, hlt, ⟨y, hy⟩, hearliest⟩ := below?_eq_some numeric hj
      obtain ⟨hjSize, -⟩ := Array.getElem?_eq_some_iff.mp hy
      have hx : h[i]? = some h[i] := Array.getElem?_eq_getElem (by omega)
      refine ih (numeric.perm (swapIfInBounds_perm _ _ _)) ?_ (.down (hjAbove.symm ▸ under))
        (hs.step hjAbove hlt hx hy hearliest) ?_
      · rw [Array.size_swapIfInBounds]
        omega
      · intro hnone k hpos hk
        rw [Array.getElem?_eq_none_iff] at hnone ⊢
        rcases (above_eq_iff hpos).mp hk with rfl | rfl
        · exact hnone
        · omega
    · rename_i hnone
      refine ⟨hs.rising (hbottom ?_), under⟩
      unfold below? at hnone
      split at hnone
      · split at hnone
        · cases hnone
        · cases hnone
      · cases hnone
      · assumption

/-- An alarm settles above alarms that are in order. -/
theorem ordered_settle (numeric : Numeric h) (below : OrderedFrom (i + 1) h) :
    OrderedFrom i (settle h i) := by
  have hsinking : Sinking i i h :=
    ⟨fun k _ hk hkTop => below k (by omega), fun hlt => absurd hlt (Nat.lt_irrefl i)⟩
  obtain ⟨hrising, hunder⟩ := rising_sink numeric h.size (Nat.le_add_left _ _) .here hsinking
  exact ordered_rise (numeric.perm (sink_perm h h.size i)) _ (Nat.le_refl _) hunder hrising

/-! ## Heaps -/

/-- The alarms of a heap are in order. -/
def Ordered (a : Alarms α) : Prop := OrderedFrom 0 a.heap

/-- No alarm is earlier than the one at the top. -/
theorem OrderedFrom.notLater_zero (ho : OrderedFrom 0 h) (k : Nat) : NotLater h 0 k := by
  induction k using Nat.strong_induction_on with
  | _ k ih =>
    obtain rfl | hpos := Nat.eq_zero_or_pos k
    · exact notLater_refl h 0
    · intro x y hx hy
      obtain ⟨hk, -⟩ := Array.getElem?_eq_some_iff.mp hy
      have hlt : above k < h.size := (above_lt hpos).trans hk
      have hmid : h[above k]? = some h[above k] := Array.getElem?_eq_getElem hlt
      exact (ih (above k) (above_lt hpos) x _ hx hmid).trans (ho k (Nat.zero_le _) _ y hmid hy)

variable {a : Alarms α}

theorem Ordered.first? (ho : a.Ordered) {x y : Alarm α} (hx : a.first? = some x) (hy : y ∈ a.heap) :
    x.wake.rank ≤ y.wake.rank := by
  obtain ⟨k, hk⟩ := Array.mem_iff_getElem?.mp hy
  exact OrderedFrom.notLater_zero ho k x y hx hk

theorem ordered_insert (ho : a.Ordered) (wake : Binary64) (cause : α)
    (numeric : Numeric (a.insert wake cause).heap) : (a.insert wake cause).Ordered := by
  have hperm : (a.insert wake cause).heap.Perm (a.heap.push { wake, number := a.count, cause }) :=
    rise_perm _ _ _ _
  have hunder : ∀ n, Under 0 n := by
    intro n
    induction n using Nat.strong_induction_on with
    | _ n ih =>
      obtain rfl | hpos := Nat.eq_zero_or_pos n
      · exact .here
      · exact .down (ih _ (above_lt hpos))
  have hbeyond : ∀ k, a.heap.size < k →
      (a.heap.push { wake, number := a.count, cause })[k]? = none := by
    intro k hk
    rw [Array.getElem?_eq_none_iff, Array.size_push]
    exact hk
  have hbefore : ∀ k, k < a.heap.size →
      (a.heap.push { wake, number := a.count, cause })[k]? = a.heap[k]? := by
    intro k hk
    rw [Array.getElem?_push, if_neg hk.ne]
  refine ordered_rise (numeric.perm hperm.symm) _ (Nat.le_refl _) (hunder _) ⟨?_, ?_⟩
  · intro k hk _
    rcases Nat.lt_or_gt_of_ne hk with hlt | hgt
    · have hle := above_le k
      intro x y hx hy
      rw [hbefore _ (by omega)] at hx
      rw [hbefore _ hlt] at hy
      exact ho k (Nat.zero_le _) x y hx hy
    · exact notLater_of_none (hbeyond k hgt)
  · intro hpos _ k hk
    have hgt : a.heap.size < k := hk ▸ above_lt (Nat.pos_of_ne_zero fun h => by
      rw [h] at hk
      exact hpos.ne hk)
    exact notLater_of_none (hbeyond k hgt)

theorem ordered_callOff (ho : a.Ordered) (number : Nat) : (a.callOff number).Ordered := by
  intro k hk x' y' hx' hy'
  unfold callOff at hx' hy'
  rw [Array.getElem?_map] at hx' hy'
  obtain ⟨x, hx, rfl⟩ := Option.map_eq_some_iff.mp hx'
  obtain ⟨y, hy, rfl⟩ := Option.map_eq_some_iff.mp hy'
  have hwake : ∀ z : Alarm α, (if z.number = number then { z with isCalledOff := true } else z).wake =
      z.wake := by
    intro z
    split <;> rfl
  rw [hwake, hwake]
  exact ho k hk x y hx hy

theorem ordered_dropFirst (ho : a.Ordered) (numeric : Numeric a.heap) : a.dropFirst.Ordered := by
  unfold dropFirst
  cases hlast : a.heap.back? with
  | none => exact ho
  | some last =>
    have hmem : last ∈ a.heap := Array.mem_of_back? hlast
    have hget : ∀ {k x}, 0 < k → (a.heap.pop.setIfInBounds 0 last)[k]? = some x →
        a.heap[k]? = some x := by
      intro k x hk hx
      rw [Array.getElem?_setIfInBounds, if_neg hk.ne, Array.getElem?_pop] at hx
      split at hx
      · exact hx
      · cases hx
    refine ordered_settle (fun x hx => ?_) fun k hk x y hx hy => ?_
    · obtain ⟨k, hk⟩ := Array.mem_iff_getElem?.mp hx
      obtain rfl | hpos := Nat.eq_zero_or_pos k
      · rw [Array.getElem?_setIfInBounds, if_pos rfl] at hk
        split at hk
        · obtain rfl := Option.some.inj hk
          exact numeric _ hmem
        · cases hk
      · exact numeric.getElem? (hget hpos hk)
    · have hless := above_le k
      exact ho k (Nat.zero_le _) x y (hget (by omega) hx) (hget (by omega) hy)

theorem numeric_dropFirst (numeric : Numeric a.heap) : Numeric a.dropFirst.heap := by
  intro x hx
  cases hlist : a.heap.toList with
  | nil =>
    have hempty : a.dropFirst = a := by
      unfold dropFirst
      rw [Array.back?_eq_none_iff.mpr (Array.toList_eq_nil_iff.mp hlist)]
    exact numeric x (hempty ▸ hx)
  | cons y ys =>
    have hmem : x ∈ ys := (dropFirst_perm hlist).mem_iff.mp (Array.mem_toList_iff.mpr hx)
    refine numeric x (Array.mem_toList_iff.mp ?_)
    rw [hlist]
    exact List.mem_cons_of_mem y hmem

theorem ordered_clearTop (fuel : Nat) (ho : a.Ordered) (numeric : Numeric a.heap) :
    (clearTop fuel a).Ordered ∧ Numeric (clearTop fuel a).heap := by
  induction fuel generalizing a with
  | zero => exact ⟨ho, numeric⟩
  | succ fuel ih =>
    unfold clearTop
    split
    · split
      · exact ih (ordered_dropFirst ho numeric) (numeric_dropFirst numeric)
      · exact ⟨ho, numeric⟩
    · exact ⟨ho, numeric⟩

/-- Alarms that settle from the last to the first are in order. -/
theorem ordered_heapOf (numeric : Numeric h) : OrderedFrom 0 (heapOf h) := by
  have hfold : ∀ (n : Nat) (h : Array (Alarm α)), Numeric h → OrderedFrom n h →
      OrderedFrom 0 ((List.range n).reverse.foldl settle h) := by
    intro n
    induction n with
    | zero => exact fun h _ ho => ho
    | succ n ih =>
      intro h hn ho
      rw [List.range_succ, List.reverse_append]
      exact ih _ (hn.perm (settle_perm h n)) (ordered_settle hn ho)
  refine hfold _ h numeric fun k hk => ?_
  obtain rfl | hpos := Nat.eq_zero_or_pos k
  · exact notLater_refl h 0
  · -- from the middle on nothing is below
    refine notLater_of_none ?_
    rw [Array.getElem?_eq_none_iff]
    unfold above at hk
    omega

theorem ordered_cleared (ho : a.Ordered) (numeric : Numeric a.heap) :
    a.cleared.Ordered ∧ Numeric a.cleared.heap := by
  unfold cleared
  split
  · have hfilter : Numeric (a.heap.filter fun x => !x.isCalledOff) := fun x hx =>
      numeric x (Array.mem_filter.mp hx).1
    exact ⟨ordered_heapOf hfilter, hfilter.perm (heapOf_perm _)⟩
  · exact ordered_clearTop _ ho numeric

/-! ## Alarms that go off -/

/-- Alarms go off in a moment: those that come before its end, in the order of their times. -/
structure Rings (endOfMoment : Binary64) (a : Alarms α) (rung : List (Alarm α)) (rest : Alarms α) :
    Prop where
  active : a.active = (rung : Multiset (Alarm α)) + rest.active
  sorted : rung.Pairwise fun x y => x.wake.rank ≤ y.wake.rank
  before : ∀ x ∈ rung, endOfMoment.le x.wake = false
  earlier : ∀ x ∈ rung, ∀ y ∈ rest.heap, x.wake.rank ≤ y.wake.rank
  after : ∀ y ∈ rest.heap, endOfMoment.le y.wake = true
  kept : ∀ y ∈ rest.heap, y ∈ a.heap
  ordered : rest.Ordered

theorem mem_heap_of_mem_active {x : Alarm α} (hx : x ∈ a.active) : x ∈ a.heap :=
  Array.mem_toList_iff.mp (List.mem_filter.mp (Multiset.mem_coe.mp hx)).1

theorem mem_of_mem_dropFirst {x y : Alarm α} (hx : a.first? = some x) (hy : y ∈ a.dropFirst.heap) :
    y ∈ a.heap := by
  obtain ⟨ys, hlist⟩ := first?_eq_some_iff.mp hx
  have hmem : y ∈ ys := (dropFirst_perm hlist).mem_iff.mp (Array.mem_toList_iff.mpr hy)
  refine Array.mem_toList_iff.mp ?_
  rw [hlist]
  exact List.mem_cons_of_mem x hmem

theorem rings_nil {endOfMoment : Binary64} (ho : a.Ordered)
    (after : ∀ y ∈ a.heap, endOfMoment.le y.wake = true) : Rings endOfMoment a [] a :=
  ⟨(zero_add _).symm, .nil, fun _ h => absurd h List.not_mem_nil,
    fun _ h => absurd h List.not_mem_nil, after, fun _ h => h, ho⟩

theorem rings_of_empty {endOfMoment : Binary64} (ho : a.Ordered) (empty : a.heap.size = 0) :
    Rings endOfMoment a [] a := by
  refine rings_nil ho fun y hy => absurd hy ?_
  rw [Array.size_eq_zero_iff.mp empty]
  exact Array.not_mem_empty y

/-- The alarm at the top goes off before all others. -/
theorem Rings.dropFirst {endOfMoment : Binary64} {x : Alarm α} {rung : List (Alarm α)}
    {rest : Alarms α} (ho : a.Ordered) (hx : a.first? = some x)
    (due : endOfMoment.le x.wake = false) (hr : Rings endOfMoment a.dropFirst rung rest) :
    Rings endOfMoment a (if x.isCalledOff then rung else x :: rung) rest := by
  have hkept : ∀ y ∈ rest.heap, y ∈ a.heap := fun y hy => mem_of_mem_dropFirst hx (hr.kept y hy)
  have hactive := active_eq_dropFirst hx
  split
  · rename_i hoff
    rw [if_pos hoff] at hactive
    exact ⟨hactive.trans hr.active, hr.sorted, hr.before, hr.earlier, hr.after, hkept, hr.ordered⟩
  · rename_i hon
    rw [if_neg hon, hr.active, ← Multiset.cons_add, Multiset.cons_coe] at hactive
    refine ⟨hactive, List.pairwise_cons.mpr ⟨fun y hy => ?_, hr.sorted⟩, ?_, ?_, hr.after, hkept,
      hr.ordered⟩
    · refine ho.first? hx (mem_of_mem_dropFirst hx (mem_heap_of_mem_active ?_))
      rw [hr.active]
      exact Multiset.mem_add.mpr (.inl (Multiset.mem_coe.mpr hy))
    · intro y hy
      rcases List.mem_cons.mp hy with rfl | hy
      · exact due
      · exact hr.before y hy
    · intro y hy z hz
      rcases List.mem_cons.mp hy with rfl | hy
      · exact ho.first? hx (hkept z hz)
      · exact hr.earlier y hy z hz

theorem exists_rings (fuel : Nat) (endOfMoment : Binary64) (ho : a.Ordered)
    (numeric : Numeric a.heap) (enough : a.heap.size ≤ fuel) :
    ∃ rung rest, ringFrom fuel endOfMoment a = (rung.map Alarm.cause, rest) ∧
      Rings endOfMoment a rung rest := by
  induction fuel generalizing a with
  | zero => exact ⟨[], a, rfl, rings_of_empty ho (Nat.le_zero.mp enough)⟩
  | succ fuel ih =>
    unfold ringFrom
    cases hfirst : a.first? with
    | none =>
      refine ⟨[], a, rfl, rings_of_empty ho ?_⟩
      rwa [Alarms.first?, Array.getElem?_eq_none_iff, Nat.le_zero] at hfirst
    | some x =>
      simp only
      split
      · rename_i hle
        exact ⟨[], a, rfl, rings_nil ho fun y hy =>
          Binary64.le_of_le_of_rank hle (numeric y hy) (ho.first? hfirst hy)⟩
      · rename_i hdue
        have hsize := size_dropFirst hfirst
        obtain ⟨rung, rest, hring, hrings⟩ := ih (ordered_dropFirst ho numeric)
          (numeric_dropFirst numeric) (by omega)
        refine ⟨_, rest, ?_, hrings.dropFirst ho hfirst (Bool.eq_false_iff.mpr hdue)⟩
        rw [hring]
        cases x.isCalledOff <;> rfl

end Conveyor.Worker.Alarms
