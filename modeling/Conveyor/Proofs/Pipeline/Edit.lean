import Conveyor.Proofs.Pipeline.Insertion
import Conveyor.Proofs.Pipeline.Sound

/-!
# Edits of a step sequence

What an author can do to the steps of a pipeline: add, insert, remove, move and replace a step, or
switch one off or on. An edit says where every step comes to stand (`Edit.place?`), and the numbers
of the steps and the targets of their branches follow their steps there (`edits_follow_steps`).
Any edit leaves the sequence committed, whatever it was before (`edited_numbers_sound`).
-/

namespace Conveyor

namespace StepSequence

/-- A change that an author makes to a sequence. Positions that are negative count from the end. -/
inductive Edit where
  | add (kind : StepKind) (settings : Fields)
  | insert (i : Int) (step : Step)
  | remove (i : Int)
  | move (source target : Int)
  | toggle (i : Int)
  | replace (i : Int) (step : Step)

/-- The sequence after an edit; none if the edit is refused. -/
def edit? (s : StepSequence) : Edit → Option StepSequence
  | .add kind settings => (Step.draft kind (s.length + 1) settings).toOption.map s.append
  | .insert i step => some (s.insert i step)
  | .remove i => (s.remove i).toOption
  | .move i j => (s.move i j).toOption
  | .toggle i => (s.toggle i).toOption
  | .replace i step => (s.replace i step).toOption

namespace Edit

/-- Whether there is what the edit is about: settings that make a step, or a step at a position. -/
def IsPossible (s : StepSequence) : Edit → Prop
  | .add kind settings => ∃ step, Step.draft kind (s.length + 1) settings = .fits step
  | .insert .. => True
  | .remove i | .move i _ | .toggle i | .replace i _ => -s.length ≤ i ∧ i < s.length

/-- Where the step at a place of so many steps stands after the edit; none if it is gone. -/
def place? (count : Nat) : Edit → Nat → Option Nat
  | .add .., p | .toggle _, p | .replace .., p => some p
  | .insert i _, p => some (if p < Position.gap count i then p else p + 1)
  | .remove i, p =>
    let k := Position.gap count i
    if p = k then none else some (if p < k then p else p - 1)
  | .move i j, p =>
    let k := Position.gap count i
    let l := Position.gap (count - 1) j
    some (if p = k then l
      else if k < p ∧ p ≤ l then p - 1
      else if l ≤ p ∧ p < k then p + 1
      else p)

/-- The same for numbers, which are one more than places. -/
def number? (count : Nat) (e : Edit) (n : Int) : Option Int :=
  if 1 ≤ n ∧ n ≤ count then (e.place? count (n - 1).toNat).map fun q : Nat => (q : Int) + 1
  else none

/-- What the edit makes of the step at a place: a step is switched off or on, or another takes its
place. -/
def content (count : Nat) (e : Edit) (p : Nat) (old : Step) : Step :=
  match e with
  | .toggle i => if p = Position.gap count i then { old with isActive := !old.isActive } else old
  | .replace i step => if p = Position.gap count i then step else old
  | _ => old

/-- The step that the edit brings, and where it comes to stand. -/
def new? (s : StepSequence) : Edit → Option (Nat × Step)
  | .add kind settings =>
    (Step.draft kind (s.length + 1) settings).toOption.map fun step => (s.length, step)
  | .insert i step => some (Position.gap s.length i, step)
  | _ => none

/-- How many of so many steps there are after the edit. -/
def countAfter (count : Nat) : Edit → Nat
  | .add .. | .insert .. => count + 1
  | .remove _ => count - 1
  | .move .. | .toggle _ | .replace .. => count

/-- What the edit leaves before the steps are numbered: the steps that were there, with their old
numbers, where it puts them, and the new one. -/
structure Leaves (e : Edit) (s : StepSequence) (edited : List Numbered) : Prop where
  length : edited.length = e.countAfter s.length
  kept : ∀ p old, s.steps[p]? = some old → ∀ q, e.place? s.length p = some q →
    edited[q]? = some (e.content s.length p old, some old.order)
  fresh : ∀ q step, e.new? s = some (q, step) → edited[q]? = some (step, none)
  stays : ∀ (q : Nat) step target, edited[q]? = some (step, some target) →
    ∃ p old, s.steps[p]? = some old ∧ old.order = target ∧ e.place? s.length p = some q

variable {s : StepSequence}

theorem getElem?_numbered (s : StepSequence) (p : Nat) :
    s.numbered[p]? = s.steps[p]?.map fun t => (t, some t.order) := List.getElem?_map

theorem numbered_eq_some_iff {p : Nat} {step : Step} {target : Int} :
    s.numbered[p]? = some (step, some target) ↔ s.steps[p]? = some step ∧ step.order = target := by
  rw [getElem?_numbered, Option.map_eq_some_iff]
  constructor
  · rintro ⟨t, ht, heq⟩
    cases heq
    exact ⟨ht, rfl⟩
  · rintro ⟨ht, rfl⟩
    exact ⟨step, ht, rfl⟩

theorem leaves_add {kind : StepKind} {settings : Fields} {step : Step}
    (h : Step.draft kind (s.length + 1) settings = .fits step) :
    (Edit.add kind settings).Leaves s (s.numbered ++ [(step, none)]) where
  length := by simp [countAfter, length_numbered, StepSequence.length]
  kept := by
    intro p old hold q hq
    have hp := (List.getElem?_eq_some_iff.mp hold).1
    simp only [place?, Option.some.injEq] at hq
    subst hq
    rw [List.getElem?_append_left (by rwa [length_numbered])]
    exact numbered_eq_some_iff.mpr ⟨hold, rfl⟩
  fresh := by
    intro q x hq
    simp only [new?, h, Checked.toOption, Option.map_some, Option.some.injEq, Prod.mk.injEq] at hq
    obtain ⟨rfl, rfl⟩ := hq
    simp [StepSequence.length, length_numbered]
  stays := by
    intro q x target hq
    rw [List.getElem?_append] at hq
    split at hq
    · obtain ⟨hx, hto⟩ := numbered_eq_some_iff.mp hq
      exact ⟨q, x, hx, hto, rfl⟩
    · simp [List.getElem?_singleton] at hq

theorem leaves_insert (i : Int) (step : Step) :
    (Edit.insert i step).Leaves s
      (s.numbered.insertIdx (Position.gap s.length i) (step, none)) := by
  have hk : Position.gap s.length i ≤ s.steps.length := Position.gap_le _ _
  constructor
  case length =>
    rw [List.length_insertIdx, length_numbered, if_pos hk]
    rfl
  case kept =>
    intro p old hold q hq
    have hp := (List.getElem?_eq_some_iff.mp hold).1
    simp only [place?, Option.some.injEq] at hq
    simp only [List.getElem?_insertIdx, content, getElem?_numbered]
    grind
  case fresh =>
    intro q x hq
    simp only [new?, Option.some.injEq, Prod.mk.injEq] at hq
    simp only [List.getElem?_insertIdx, getElem?_numbered, length_numbered]
    grind
  case stays =>
    intro q x target hq
    rw [List.getElem?_insertIdx] at hq
    split at hq
    · obtain ⟨hx, hto⟩ := numbered_eq_some_iff.mp hq
      exact ⟨q, x, hx, hto, by grind [place?]⟩
    · split at hq
      · simp at hq
      · obtain ⟨hx, hto⟩ := numbered_eq_some_iff.mp hq
        exact ⟨q - 1, x, hx, hto, by grind [place?]⟩

theorem leaves_remove {i : Int} (h : Position.gap s.length i < s.length) :
    (Edit.remove i).Leaves s (s.numbered.eraseIdx (Position.gap s.length i)) := by
  constructor
  case length =>
    rw [List.length_eraseIdx_of_lt (by rwa [length_numbered]), length_numbered]
    rfl
  case kept =>
    intro p old hold q hq
    simp only [place?] at hq
    simp only [List.getElem?_eraseIdx, content, getElem?_numbered]
    grind
  case fresh =>
    intro q x hq
    cases hq
  case stays =>
    intro q x target hq
    rw [List.getElem?_eraseIdx] at hq
    split at hq
    · obtain ⟨hx, hto⟩ := numbered_eq_some_iff.mp hq
      exact ⟨q, x, hx, hto, by grind [place?]⟩
    · obtain ⟨hx, hto⟩ := numbered_eq_some_iff.mp hq
      exact ⟨q + 1, x, hx, hto, by grind [place?]⟩

theorem leaves_move {i j : Int} {step : Step} (h : Position.gap s.length i < s.length)
    (hstep : s.steps[Position.gap s.length i]? = some step) :
    (Edit.move i j).Leaves s ((s.numbered.eraseIdx (Position.gap s.length i)).insertIdx
      (Position.gap (s.length - 1) j) (step, some step.order)) := by
  have hl := Position.gap_le (s.length - 1) j
  have hrest : (s.numbered.eraseIdx (Position.gap s.length i)).length = s.length - 1 := by
    rw [List.length_eraseIdx_of_lt (by rwa [length_numbered]), length_numbered]
    rfl
  constructor
  case length =>
    rw [List.length_insertIdx, hrest, if_pos hl]
    simp only [countAfter]
    omega
  case kept =>
    intro p old hold q hq
    have hp := (List.getElem?_eq_some_iff.mp hold).1
    simp only [place?, Option.some.injEq] at hq
    simp only [List.getElem?_insertIdx, List.getElem?_eraseIdx, content, getElem?_numbered, hrest]
    grind
  case fresh =>
    intro q x hq
    cases hq
  case stays =>
    intro q x target hq
    rw [List.getElem?_insertIdx, hrest, List.getElem?_eraseIdx, List.getElem?_eraseIdx] at hq
    have hfound : ∀ p, s.numbered[p]? = some (x, some target) →
        Edit.place? s.length (.move i j) p = some q →
          ∃ p old, s.steps[p]? = some old ∧ old.order = target ∧
            Edit.place? s.length (.move i j) p = some q := by
      intro p hp hq
      obtain ⟨hx, hto⟩ := numbered_eq_some_iff.mp hp
      exact ⟨p, x, hx, hto, hq⟩
    split at hq
    · split at hq
      · exact hfound q hq (by grind [place?])
      · exact hfound (q + 1) hq (by grind [place?])
    · split at hq
      · obtain ⟨-, rfl, hto⟩ : _ ∧ step = x ∧ step.order = target := by simpa using hq
        exact ⟨_, step, hstep, hto, by grind [place?]⟩
      · split at hq
        · exact hfound (q - 1) hq (by grind [place?])
        · exact hfound (q - 1 + 1) hq (by grind [place?])

/-- Another step in the place of one, or the same one switched off or on. -/
theorem leaves_modify {e : Edit} (i : Int) (step : Step)
    (place : ∀ p, e.place? s.length p = some p) (count : e.countAfter s.length = s.length)
    (new : e.new? s = none)
    (content : ∀ p old, s.steps[p]? = some old →
      e.content s.length p old = if p = Position.gap s.length i then step else old) :
    e.Leaves s (s.numbered.modify (Position.gap s.length i) fun (_, old) => (step, old)) := by
  constructor
  case length => rw [List.length_modify, length_numbered, count, StepSequence.length]
  case kept =>
    intro p old hold q hq
    rw [place] at hq
    obtain rfl := Option.some.inj hq
    rw [List.getElem?_modify, getElem?_numbered, hold, content p old hold]
    grind
  case fresh =>
    intro q x hq
    rw [new] at hq
    cases hq
  case stays =>
    intro q x target hq
    rw [List.getElem?_modify, getElem?_numbered] at hq
    cases hold : s.steps[q]? with
    | none => simp [hold] at hq
    | some old =>
      refine ⟨q, old, hold, ?_, place q⟩
      simp only [hold] at hq
      grind

end Edit

variable {s : StepSequence} {i : Int}

theorem element?_eq_ok (h : -s.length ≤ i ∧ i < s.length) :
    s.element? i = .ok (Position.gap s.length i) := by
  rw [element?, Position.element?_eq, if_pos h]

theorem element?_eq_error (h : ¬(-s.length ≤ i ∧ i < s.length)) :
    s.element? i = .error .badIndex := by
  rw [element?, Position.element?_eq, if_neg h]

theorem exists_step (h : -s.length ≤ i ∧ i < s.length) :
    ∃ step, s.steps[Position.gap s.length i]? = some step :=
  ⟨_, List.getElem?_eq_getElem (Position.gap_lt h)⟩

/-- A possible edit is carried out. -/
theorem exists_edited {e : Edit} (h : e.IsPossible s) :
    ∃ edited, s.edit? e = some (commit edited) ∧ e.Leaves s edited := by
  cases e with
  | add kind settings =>
    obtain ⟨step, hstep⟩ := h
    exact ⟨_, by rw [edit?, hstep]; rfl, Edit.leaves_add hstep⟩
  | insert i step => exact ⟨_, rfl, Edit.leaves_insert i step⟩
  | remove i =>
    exact ⟨_, by rw [edit?, remove, element?_eq_ok h]; rfl,
      Edit.leaves_remove (Position.gap_lt h)⟩
  | move i j =>
    obtain ⟨step, hstep⟩ := exists_step h
    have hrest : (s.numbered.eraseIdx (Position.gap s.length i)).length = s.length - 1 := by
      rw [List.length_eraseIdx_of_lt (by rw [length_numbered]; exact Position.gap_lt h),
        length_numbered]
      rfl
    refine ⟨_, ?_, Edit.leaves_move (Position.gap_lt h) hstep⟩
    rw [edit?, move, element?_eq_ok h, ← hrest]
    simp only [bind, Except.bind, Edit.numbered_eq_some_iff.mpr ⟨hstep, rfl⟩]
    rfl
  | toggle i =>
    obtain ⟨step, hstep⟩ := exists_step h
    refine ⟨_, ?_, Edit.leaves_modify i { step with isActive := !step.isActive }
      (fun _ => rfl) rfl rfl fun p old hold => ?_⟩
    · rw [edit?, toggle, get, element?_eq_ok h]
      simp only [bind, Except.bind, hstep, pure, Except.pure, replace, element?_eq_ok h]
      rfl
    · simp only [Edit.content]
      by_cases hp : p = Position.gap s.length i
      · subst hp
        rw [hstep] at hold
        rw [if_pos rfl, if_pos rfl, Option.some.inj hold]
      · rw [if_neg hp, if_neg hp]
  | replace i step =>
    exact ⟨_, by rw [edit?, replace, element?_eq_ok h]; rfl,
      Edit.leaves_modify i step (fun _ => rfl) rfl rfl fun _ _ _ => rfl⟩

/-- An edit that is not possible is refused. -/
theorem edit?_eq_none {e : Edit} (h : ¬e.IsPossible s) : s.edit? e = none := by
  cases e with
  | add kind settings =>
    cases hdraft : Step.draft kind (s.length + 1) settings with
    | fits step => exact absurd ⟨step, hdraft⟩ h
    | misfits ms =>
      rw [edit?, hdraft]
      rfl
  | insert i step => exact absurd trivial h
  | remove i =>
    rw [edit?, remove, element?_eq_error h]
    rfl
  | move i j =>
    rw [edit?, move, element?_eq_error h]
    rfl
  | toggle i =>
    rw [edit?, toggle, get, element?_eq_error h]
    rfl
  | replace i step =>
    rw [edit?, replace, element?_eq_error h]
    rfl

/-! ## What an edit makes of a committed sequence -/

/-- The sequence after an edit: the steps that were there stand where the edit puts them, and so
does the new one. Every step has the number of its place, and its branches lead to the new numbers
of the steps that they led to. -/
structure Edit.Follows (e : Edit) (s t : StepSequence) : Prop where
  length : t.length = e.countAfter s.length
  kept : ∀ p old, s.steps[p]? = some old → ∀ q, e.place? s.length p = some q →
    t.steps[q]? = some ((e.content s.length p old).placed (e.number? s.length) q)
  fresh : ∀ q step, e.new? s = some (q, step) →
    t.steps[q]? = some (step.placed (e.number? s.length) q)

/-- The new numbers of the steps are those of their new places. -/
theorem Edit.Leaves.renumbered?_eq {e : Edit} {edited : List Numbered} (h : e.Leaves s edited)
    (committed : s.IsCommitted) : renumbered? edited = e.number? s.length := by
  apply StepSequence.renumbered?_eq
  · intro q step target hq
    -- in a committed sequence the old number says at which place the step stood
    obtain ⟨p, old, hold, rfl, hplace⟩ := h.stays q step target hq
    have hp : p < s.length := (List.getElem?_eq_some_iff.mp hold).1
    rw [order_of_getElem? committed.numbered hold, Edit.number?, if_pos (by omega)]
    simp [hplace]
  · intro target m hm
    unfold Edit.number? at hm
    split at hm
    · rename_i hin
      obtain ⟨q, hq, -⟩ := Option.map_eq_some_iff.mp hm
      obtain ⟨old, hold⟩ : ∃ old, s.steps[(target - 1).toNat]? = some old :=
        ⟨_, List.getElem?_eq_getElem (show (target - 1).toNat < s.steps.length by
          have : s.length = s.steps.length := rfl
          omega)⟩
      have horder : old.order = target := by
        rw [order_of_getElem? committed.numbered hold]
        omega
      exact ⟨q, _, horder ▸ h.kept _ old hold q hq⟩
    · cases hm

theorem Edit.Leaves.follows {e : Edit} {edited : List Numbered} (h : e.Leaves s edited)
    (committed : s.IsCommitted) : e.Follows s (commit edited) := by
  have hnumber := h.renumbered?_eq committed
  constructor
  case length => rw [length_commit, h.length]
  case kept =>
    intro p old hold q hq
    rw [getElem?_commit, hnumber, h.kept p old hold q hq]
    rfl
  case fresh =>
    intro q step hq
    rw [getElem?_commit, hnumber, h.fresh q step hq]
    rfl

/-- An edit takes back another if it puts every step back where it was and changes none. -/
theorem eq_of_follows_back {e e' : Edit} {t u : StepSequence} (committed : s.IsCommitted)
    (there : e.Follows s t) (back : e'.Follows t u) (count : e'.countAfter t.length = s.length)
    (places : ∀ p < s.length, ∃ q, e.place? s.length p = some q ∧ e'.place? t.length q = some p)
    (same : ∀ p old, e.content s.length p old = old)
    (same' : ∀ q old, e'.content t.length q old = old) : u = s := by
  have hsteps : u.steps = s.steps := by
    apply List.ext_getElem?
    intro p
    by_cases hp : p < s.length
    · obtain ⟨old, hold⟩ : ∃ old, s.steps[p]? = some old := ⟨_, List.getElem?_eq_getElem hp⟩
      obtain ⟨q, hq, hq'⟩ := places p hp
      have hthere := there.kept p old hold q hq
      rw [back.kept q _ hthere p hq', hold, same, same', Step.placed_placed]
      refine congrArg some (Step.placed_eq_self ?_ ?_)
      · exact order_of_getElem? committed.numbered hold
      · -- a target goes to the new number of its step and from there back to the old one
        intro hkind n hn
        have hin := committed.targets old (List.mem_of_getElem? hold) hkind n hn
        obtain ⟨r, hr, hr'⟩ := places (n - 1).toNat (by omega)
        have hlt : r < t.length := by
          obtain ⟨step, hstep⟩ : ∃ step, s.steps[(n - 1).toNat]? = some step :=
            ⟨_, List.getElem?_eq_getElem (show (n - 1).toNat < s.length by omega)⟩
          exact (List.getElem?_eq_some_iff.mp (there.kept _ step hstep r hr)).1
        rw [Edit.number?, if_pos hin, hr, Option.map_some, Option.bind_some, Edit.number?,
          if_pos (by omega)]
        simp only [add_sub_cancel_right, Int.toNat_natCast, hr', Option.map_some]
        congr 1
        omega
    · have hu : u.steps.length = s.length := back.length.trans count
      rw [List.getElem?_eq_none (by omega), List.getElem?_eq_none (by
        have : s.length = s.steps.length := rfl
        omega)]
  cases u
  cases s
  exact congrArg StepSequence.mk hsteps

/-- Steps that are not themselves moved stay in their order. -/
theorem Edit.place?_lt {count : Nat} {e : Edit} {p p' q q' : Nat} (h : p < p')
    (hq : e.place? count p = some q) (hq' : e.place? count p' = some q')
    (still : ∀ i j, e = .move i j → p ≠ Position.gap count i ∧ p' ≠ Position.gap count i) :
    q < q' := by
  cases e with
  | move i j =>
    obtain ⟨hp, hp'⟩ := still i j rfl
    simp only [place?, Option.some.injEq] at hq hq'
    rw [if_neg hp] at hq
    rw [if_neg hp'] at hq'
    grind
  | _ => grind [place?]

/-- A possible edit of a committed sequence is carried out, and all steps, their numbers and the
targets of their branches are where it puts them; the steps that it does not move stay in their
order. Removing a step takes back its insertion, and moving it back takes back its move. -/
theorem edits_follow_steps (committed : s.IsCommitted) :
    (∀ e : Edit, e.IsPossible s → ∃ t, s.edit? e = some t ∧ e.Follows s t) ∧
      (∀ (e : Edit) (p p' q q' : Nat), p < p' → e.place? s.length p = some q →
        e.place? s.length p' = some q' →
        (∀ i j, e = .move i j → p ≠ Position.gap s.length i ∧ p' ≠ Position.gap s.length i) →
          q < q') ∧
      (∀ (i : Nat) (step : Step), i ≤ s.length →
        (s.edit? (.insert i step)).bind (·.edit? (.remove i)) = some s) ∧
      ∀ i j : Nat, i < s.length → j < s.length →
        (s.edit? (.move i j)).bind (·.edit? (.move j i)) = some s := by
  have hedit : ∀ {s : StepSequence}, s.IsCommitted → ∀ e : Edit, e.IsPossible s →
      ∃ t, s.edit? e = some t ∧ t.IsCommitted ∧ e.Follows s t := by
    intro s committed e he
    obtain ⟨edited, hedited, hleaves⟩ := exists_edited he
    exact ⟨_, hedited, isCommitted_commit edited, hleaves.follows committed⟩
  refine ⟨fun e he => ?_, fun e p p' q q' h hq hq' still => Edit.place?_lt h hq hq' still,
    fun i step hi => ?_, fun i j hi hj => ?_⟩
  · obtain ⟨t, ht, -, hfollows⟩ := hedit committed e he
    exact ⟨t, ht, hfollows⟩
  · obtain ⟨t, ht, hcommitted, hthere⟩ := hedit committed (.insert i step) trivial
    have hlength : t.length = s.length + 1 := hthere.length
    obtain ⟨u, hu, -, hback⟩ := hedit hcommitted (.remove i) (by
      show -(t.length : Int) ≤ i ∧ (i : Int) < t.length
      omega)
    rw [ht, Option.bind_some, hu]
    refine congrArg some (eq_of_follows_back committed hthere hback ?_ (fun p hp => ?_)
      (fun _ _ => rfl) (fun _ _ => rfl))
    · simp only [Edit.countAfter]
      omega
    · simp only [Edit.place?, Position.gap_of_le hi, hlength,
        Position.gap_of_le (show i ≤ s.length + 1 by omega)]
      refine ⟨_, rfl, ?_⟩
      grind
  · obtain ⟨t, ht, hcommitted, hthere⟩ := hedit committed (.move i j) (by
      show -(s.length : Int) ≤ i ∧ (i : Int) < s.length
      omega)
    have hlength : t.length = s.length := hthere.length
    obtain ⟨u, hu, -, hback⟩ := hedit hcommitted (.move j i) (by
      show -(t.length : Int) ≤ j ∧ (j : Int) < t.length
      omega)
    rw [ht, Option.bind_some, hu]
    refine congrArg some (eq_of_follows_back committed hthere hback hlength (fun p hp => ?_)
      (fun _ _ => rfl) (fun _ _ => rfl))
    simp only [Edit.place?, hlength, Position.gap_of_le (show i ≤ s.length by omega),
      Position.gap_of_le (show j ≤ s.length by omega),
      Position.gap_of_le (show i ≤ s.length - 1 by omega),
      Position.gap_of_le (show j ≤ s.length - 1 by omega)]
    refine ⟨_, rfl, ?_⟩
    grind

/-- A call, a condition that leads back to it or on to itself, and a wait. -/
def looping : StepSequence :=
  ⟨[{ order := 1, name := "call", kind := .restCall },
    { order := 2, name := "again", kind := .condition
      branch := { onTrue := some 1, onFalse := some 2 } },
    { order := 3, name := "wait", kind := .delay }]⟩

/-- The call is moved to the end, and the condition goes on leading to it and to itself. -/
theorem looping_moved :
    looping.IsCommitted ∧ (Edit.move 0 2).IsPossible looping ∧
      ∃ t, looping.edit? (.move 0 2) = some t ∧ (Edit.move 0 2).Follows looping t ∧
        t.steps.map (fun s => (s.name, s.branch.onTrue, s.branch.onFalse)) =
          [("again", some 3, some 1), ("wait", none, none), ("call", none, none)] ∧
        t.edit? (.move 2 0) = some looping := by
  have committed : looping.IsCommitted := by
    refine ⟨by decide, ?_⟩
    simp only [looping, List.forall_mem_cons]
    refine ⟨by simp, fun _ n hn => ?_, by simp, by simp⟩
    simp only [Option.some.injEq] at hn
    show 1 ≤ n ∧ n ≤ (3 : Nat)
    omega
  have possible : (Edit.move 0 2).IsPossible looping := ⟨by decide, by decide⟩
  obtain ⟨edits, -, -, moves⟩ := edits_follow_steps committed
  obtain ⟨t, ht, hfollows⟩ := edits _ possible
  have hback := moves 0 2 (by decide) (by decide)
  refine ⟨committed, possible, t, ht, hfollows, ?_, ?_⟩
  · obtain rfl := Option.some.inj ht
    rfl
  · simpa [ht] using hback

/-! ## Any edits of any steps -/

/-- An edit that is carried out leaves a committed sequence. -/
theorem isCommitted_of_edit? {e : Edit} {t : StepSequence} (h : s.edit? e = some t) :
    t.IsCommitted := by
  by_cases possible : e.IsPossible s
  · obtain ⟨edited, hedited, -⟩ := exists_edited possible
    obtain rfl := Option.some.inj (hedited.symm.trans h)
    exact isCommitted_commit edited
  · rw [edit?_eq_none possible] at h
    cases h

/-- Several edits one after the other leave a committed sequence if there is one at all, or if the
sequence was committed before. -/
theorem isCommitted_of_foldlM {edits : List Edit} {t : StepSequence}
    (start : edits = [] → s.IsCommitted) (h : edits.foldlM edit? s = some t) : t.IsCommitted := by
  induction edits generalizing s with
  | nil =>
    obtain rfl := Option.some.inj h
    exact start rfl
  | cons e edits ih =>
    obtain ⟨s', hs', h⟩ := Option.bind_eq_some_iff.mp h
    exact ih (fun _ => isCommitted_of_edit? hs') h

/-- Whatever the numbers and the targets of the steps were, after any edits that are carried out the
steps are numbered from one on and every target is a step, so that validation of a pipeline with
these steps reports no issue about either. -/
theorem edited_numbers_sound {edits : List Edit} {t : StepSequence} (edited : edits ≠ [])
    (h : edits.foldlM edit? s = some t) :
    t.isContiguous = true ∧
      (∀ step ∈ t.steps, step.kind = .condition → ∀ n,
        step.branch.onTrue = some n ∨ step.branch.onFalse = some n → 1 ≤ n ∧ n ≤ t.length) ∧
      ∀ (p : Pipeline) (place : Place) (issues : List Issue), p.steps = t.steps →
        Validation.pipelineIssues place p = .ok issues →
          ∀ i ∈ issues, i.code ≠ "InvalidStepOrder" ∧ i.code ≠ "DanglingStepReference" := by
  have committed : t.IsCommitted := isCommitted_of_foldlM (fun hnil => absurd hnil edited) h
  refine ⟨committed.numbered, committed.targets, fun p place issues hsteps hissues => ?_⟩
  have hsorted : p.sortedSteps = t.steps := by
    rw [Pipeline.sortedSteps_of_isContiguous (by rw [hsteps]; exact committed.numbered), hsteps]
  refine Validation.pipelineIssues_elsewhere hissues ?_ ?_
  · rw [hsorted]
    exact of_decide_eq_true committed.numbered
  · rw [hsorted]
    exact committed.targets

/-- Two steps of one number, a gap, and branches to steps that there are not. -/
def tangled : StepSequence :=
  ⟨[{ order := 4, name := "call", kind := .restCall },
    { order := 4, name := "again", kind := .condition
      branch := { onTrue := some 4, onFalse := some 9 } },
    { order := -2, name := "wait", kind := .delay }]⟩

/-- A step is put in far before the start, the last one is moved to the front, and the sequence is
sound: of two steps of one number the last is the one that a branch led to. -/
theorem tangled_edited :
    let edits : List Edit := [.insert (-7) { order := 9, name := "new", kind := .transform },
      .move (-1) 0, .toggle (-2)]
    edits ≠ [] ∧ ∃ t, edits.foldlM edit? tangled = some t ∧
      t.steps.map (fun s => (s.order, s.name, s.branch.onTrue, s.branch.onFalse)) =
        [(1, "wait", none, none), (2, "new", none, none), (3, "call", none, none),
          (4, "again", some 4, none)] ∧
      t.isContiguous = true ∧
      ∀ (p : Pipeline) (place : Place) (issues : List Issue), p.steps = t.steps →
        Validation.pipelineIssues place p = .ok issues →
          ∀ i ∈ issues, i.code ≠ "InvalidStepOrder" ∧ i.code ≠ "DanglingStepReference" := by
  intro edits
  have hne : edits ≠ [] := List.cons_ne_nil _ _
  obtain ⟨t, ht, hshown⟩ : ∃ t, edits.foldlM edit? tangled = some t ∧
      t.steps.map (fun s => (s.order, s.name, s.branch.onTrue, s.branch.onFalse)) =
        [(1, "wait", none, none), (2, "new", none, none), (3, "call", none, none),
          (4, "again", some 4, none)] := ⟨_, rfl, rfl⟩
  obtain ⟨numbered, -, reported⟩ := edited_numbers_sound hne ht
  exact ⟨hne, t, ht, hshown, numbered, reported⟩

end StepSequence
end Conveyor
