import Conveyor.Proofs.Json.Legible
import Conveyor.Schema.Scalar

/-!
# Reading legible documents

What a field of a legible document is read as can be written as a legible value again: integers
come from integers, from doubles of 64 bits or from texts within the limit of digits, and doubles
are rounded.
-/

namespace Conveyor

namespace Checked

variable {α β : Type} {P : α → Prop} {Q : β → Prop}

/-- What fits has the property. -/
def Yields (P : α → Prop) (x : Checked α) : Prop := ∀ a, x = .fits a → P a

namespace Yields

theorem any (x : Checked α) : x.Yields fun _ => True := fun _ _ => trivial

theorem fits {a : α} (h : P a) : (Checked.fits a).Yields P := by
  rintro _ ⟨⟩
  exact h

theorem refuse (kind : MisfitKind) : (Checked.refuse kind : Checked α).Yields P := by
  rintro _ ⟨⟩

theorem map {f : β → α} {x : Checked β} (hx : x.Yields Q) (h : ∀ b, Q b → P (f b)) :
    (f <$> x).Yields P := by
  cases x with
  | fits b => exact .fits (h b (hx b rfl))
  | misfits ms => rintro _ ⟨⟩

theorem ite {c : Prop} [Decidable c] {x y : Checked α} (hx : c → x.Yields P)
    (hy : ¬ c → y.Yields P) : (if c then x else y).Yields P := by
  split
  · exact hx ‹_›
  · exact hy ‹_›

/-- What a record yields follows from what its last field does, whatever the others are. -/
theorem seq {f : Checked (β → α)} {x : Checked β} (hx : x.Yields Q)
    (hf : f.Yields fun g => ∀ b, Q b → P (g b)) : (f <*> x).Yields P := by
  cases f with
  | fits g => exact hx.map (hf g rfl)
  | misfits ms => cases x <;> rintro _ ⟨⟩

theorem within {x : Checked α} (hx : x.Yields P) (mark : Mark) : (x.within mark).Yields P := by
  cases x with
  | fits a => exact hx
  | misfits ms => rintro _ ⟨⟩

theorem all {xs : List (Checked α)} (h : ∀ x ∈ xs, x.Yields P) :
    (Checked.all xs).Yields fun as => ∀ a ∈ as, P a := by
  induction xs with
  | nil => exact .fits (List.forall_mem_nil _)
  | cons x rest ih =>
    obtain ⟨hx, hrest⟩ := List.forall_mem_cons.mp h
    exact .seq (ih hrest) (.map hx fun a ha as has => List.forall_mem_cons.mpr ⟨ha, has⟩)

end Yields
end Checked

/-- A field that is legible if it is there. -/
def Wire.IsLegible (o : Option Value) : Prop := ∀ v, o = some v → v.isLegible true = true

namespace Schema

variable {α : Type} {P : α → Prop}

/-- What is read from legible values has the property. -/
def Keeps (P : α → Prop) (read : Reading α) : Prop :=
  ∀ v, v.isLegible true = true → (read v).Yields P

/-! ## Scalars -/

theorem keeps_anything : Keeps (fun v => v.isLegible true = true) anything := fun _ h => .fits h

theorem keeps_text : Keeps (fun s => (Value.text s).isLegible true = true) text :=
  fun _ _ _ _ => rfl

theorem plainInteger_yields (cs : List Char) :
    (plainInteger cs).Yields fun n => (Value.int n).isLegible true = true := by
  unfold plainInteger
  split
  rename_i negative tail _
  refine .ite (fun _ => .refuse _) fun _ => .ite (fun _ => .refuse _) fun hsize =>
    .ite (fun _ => .refuse _) fun _ => .fits ?_
  refine Json.isLegible_numberOf negative (List.all_eq_true.mp List.all_takeWhile) ?_
  split at hsize <;> omega

theorem keeps_integer : Keeps (fun n => (Value.int n).isLegible true = true) integer := by
  have hshort : ∀ n : Int, n.natAbs < 10 ^ 20 → (Value.int n).isLegible true = true := by
    intro n hn
    have hlength := (Nat.length_toDigits_le_iff (b := 10) (k := 20) (by decide) (by decide)).mpr hn
    rw [Value.isLegible, decimalDigits_eq, decide_eq_true_eq]
    exact hlength.trans (by decide)
  intro v h
  cases v with
  | int n => exact .fits h
  | bool b => exact .fits (by cases b <;> decide)
  | float x =>
    show (integerOfDouble x).Yields _
    exact .ite (fun _ => .refuse _) fun _ => .ite (fun _ => .refuse _) fun _ =>
      .ite (fun hword => .fits (hshort _ (by omega))) fun _ => .refuse _
  | text s =>
    show (integerOfText s).Yields _
    unfold integerOfText
    split
    · exact plainInteger_yields _
    · exact .refuse _
  | _ => exact .refuse _

theorem isLegible_wordNumber {cs : List Char} {x : Binary64} (h : Text.wordNumber? cs = some x) :
    (Value.float x).isLegible true = true := by
  unfold Text.wordNumber? at h
  split at h
  dsimp only at h
  split at h
  · obtain rfl := Option.some.inj h
    exact Binary64.isLegible_infinity
  split at h
  · obtain rfl := Option.some.inj h
    decide
  · cases h

theorem isLegible_plainDouble {cs : List Char} {x : Binary64} (h : plainDouble? cs = some x) :
    (Value.float x).isLegible true = true := by
  unfold plainDouble? at h
  split at h
  · split at h
    · rename_i hword
      obtain rfl := Option.some.inj h
      exact isLegible_wordNumber hword
    · obtain ⟨n, -, rfl⟩ := Option.map_eq_some_iff.mp h
      exact Binary64.isLegible_ofDecimal _ _
  · cases h

theorem doubleOfText_yields (s : String) :
    (doubleOfText s).Yields fun x => (Value.float x).isLegible true = true := by
  unfold doubleOfText
  split
  · rename_i x hx
    refine .fits ?_
    rcases Option.or_eq_some_iff.mp hx with hplain | ⟨-, hunderscores⟩
    · exact isLegible_plainDouble hplain
    · obtain ⟨cs, -, hplain⟩ := Option.bind_eq_some_iff.mp hunderscores
      exact isLegible_plainDouble hplain
  · exact .refuse _

theorem isLegible_ofInt (n : Int) : (Value.float (.ofInt n)).isLegible true = true := by
  unfold Binary64.ofInt Binary64.ofSigned
  split
  · exact Binary64.isLegible_zero
  · exact Binary64.isLegible_ofRatio _ _

theorem keeps_number : Keeps (fun x => (Value.float x).isLegible true = true) number := by
  intro v h
  cases v with
  | float x => exact .fits h
  | int n =>
    show (doubleOfInteger n).Yields _
    exact .ite (fun _ => .fits (isLegible_ofInt n)) fun _ => .refuse _
  | bool b => exact .fits (isLegible_ofInt _)
  | text s => exact doubleOfText_yields s
  | _ => exact .refuse _

/-! ## Fields -/

variable {fs : Fields}

theorem fieldNamed_yields (hfs : ∀ f ∈ fs, f.2.isLegible true = true) {wire plain : String}
    {read : Reading α} (hread : Keeps P read) {absent : Checked α} (habsent : absent.Yields P) :
    (fieldNamed fs wire plain read absent).Yields P := by
  unfold fieldNamed find?
  cases hwire : fs.get? wire with
  | some v => exact (hread v (hfs _ (Keyed.mem_of_get? hwire))).within _
  | none =>
    cases hplain : fs.get? plain with
    | some v => exact (hread v (hfs _ (Keyed.mem_of_get? hplain))).within _
    | none => exact habsent

theorem required_yields (hfs : ∀ f ∈ fs, f.2.isLegible true = true) {name : String}
    {read : Reading α} (hread : Keeps P read) : (required fs name read).Yields P :=
  fieldNamed_yields hfs hread ((Checked.Yields.refuse _).within _)

theorem withDefault_yields (hfs : ∀ f ∈ fs, f.2.isLegible true = true) {name : String}
    {read : Reading α} (hread : Keeps P read) {default : α} (hdefault : P default) :
    (withDefault fs name read default).Yields P :=
  fieldNamed_yields hfs hread (.fits hdefault)

theorem keeps_nullable {read : Reading α} {enc : α → Value}
    (hread : Keeps (fun a => (enc a).isLegible true = true) read) :
    Keeps (fun o => Wire.IsLegible (o.map enc)) (nullable read) := by
  have hsome : ∀ a, (enc a).isLegible true = true → Wire.IsLegible ((some a).map enc) := by
    rintro a ha _ ⟨⟩
    exact ha
  intro v h
  cases v with
  | null =>
    refine .fits ?_
    rintro _ ⟨⟩
  | _ => exact (hread _ h).map hsome

theorem optional_yields (hfs : ∀ f ∈ fs, f.2.isLegible true = true) {name : String}
    {read : Reading α} {enc : α → Value}
    (hread : Keeps (fun a => (enc a).isLegible true = true) read) :
    (optional fs name read).Yields fun o => Wire.IsLegible (o.map enc) :=
  withDefault_yields hfs (keeps_nullable hread) (by rintro _ ⟨⟩)

theorem keeps_listOf {read : Reading α} (hread : Keeps P read) :
    Keeps (fun as => ∀ a ∈ as, P a) (listOf read) := by
  intro v h
  cases v with
  | list items =>
    refine .all fun x hx => ?_
    obtain ⟨i, hi, rfl⟩ := List.mem_mapIdx.mp hx
    exact (hread _ ((Value.isLegible_list items).mp h _ (List.getElem_mem hi))).within _
  | _ => exact .refuse _

theorem keeps_record {read : Fields → Checked α}
    (hread : ∀ fs : Fields, (∀ f ∈ fs, f.2.isLegible true = true) → (read fs).Yields P) :
    Keeps P (record read) := by
  intro v h
  cases v with
  | object fs => exact hread fs ((Value.isLegible_object fs).mp h).2
  | _ => exact .refuse _

/-- A document inside a text is as legible as one in its place. -/
theorem keeps_orDocument {β : Type} {P : Option β → Prop} {read : Reading (Option β)}
    (hread : Keeps P read) : Keeps P (orDocument read) := by
  intro v h
  cases v with
  | text s =>
    refine .ite (fun _ => hread .null rfl) fun _ => ?_
    split
    · rename_i v hv
      exact hread v (Json.isLegible_of_read? hv)
    · exact .refuse _
  | _ => exact hread _ h

/-- An object keeps its names, so that they differ. -/
theorem keeps_objectOf {read : Reading α} {enc : α → Value}
    (hread : Keeps (fun a => (enc a).isLegible true = true) read) :
    Keeps (fun m => (Value.object (m.mapValues enc)).isLegible true = true) (objectOf read) := by
  have hpairs : ∀ fs : Fields, (∀ f ∈ fs, f.2.isLegible true = true) →
      (Checked.all (fs.map fun f => ((read f.2).map (f.1, ·)).within (.field f.1))).Yields
        fun m => Keyed.keys m = Keyed.keys fs ∧ ∀ a ∈ m, (enc a.2).isLegible true = true := by
    intro fs hfs
    induction fs with
    | nil => exact .fits ⟨rfl, List.forall_mem_nil _⟩
    | cons f rest ih =>
      obtain ⟨hf, hrest⟩ := List.forall_mem_cons.mp hfs
      have hitem : (((read f.2).map (f.1, ·)).within (.field f.1)).Yields
          fun a => a.1 = f.1 ∧ (enc a.2).isLegible true = true :=
        .within (.map (hread _ hf) fun a ha => ⟨rfl, ha⟩) _
      refine .seq (ih hrest) (.map hitem ?_)
      rintro a ⟨hname, ha⟩ m ⟨hkeys, hm⟩
      exact ⟨congrArg₂ List.cons hname hkeys, List.forall_mem_cons.mpr ⟨ha, hm⟩⟩
  intro v h
  cases v with
  | object fs =>
    obtain ⟨hdistinct, hfs⟩ := (Value.isLegible_object fs).mp h
    intro m hm
    obtain ⟨hkeys, hvalues⟩ := hpairs fs hfs m hm
    refine (Value.isLegible_object _).mpr ⟨?_, List.forall_mem_map.mpr hvalues⟩
    rw [Keyed.keys_mapValues, hkeys]
    exact hdistinct
  | _ => exact .refuse _

end Schema
end Conveyor
