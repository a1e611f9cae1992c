import Conveyor.Proofs.Mapping.Coercion
import Conveyor.Proofs.Template.Filling

/-!
# Values inside longer texts

A placeholder inside a longer text is replaced by the document of its value. The document can be read again, and
gives the value back, but for sealed objects: in the place of one stands a text that shows it
(`embedded_reads_iff`).
-/

namespace Conveyor

namespace Value

/-! ## Sealed objects replaced -/

mutual

/-- The value with something else in the place of every sealed object. -/
def unsealed (put : List (String × Value) → Value) : Value → Value
  | .list items => .list (unsealedItems put items)
  | .object fs => .object (unsealedFields put fs)
  | .sealed fs => put fs
  | v => v

def unsealedItems (put : List (String × Value) → Value) : List Value → List Value
  | [] => []
  | v :: rest => v.unsealed put :: unsealedItems put rest

def unsealedFields (put : List (String × Value) → Value) :
    List (String × Value) → List (String × Value)
  | [] => []
  | (k, v) :: rest => (k, v.unsealed put) :: unsealedFields put rest

end

/-- The value as data: a sealed object is the object that it shares. -/
def opened (v : Value) : Value := v.unsealed .object

/-- The value as it is written: a sealed object is a text that shows it. -/
def masked (v : Value) : Value := v.unsealed fun fs => .text (displayed (.sealed fs))

variable {put put' : List (String × Value) → Value} {words : Bool}

theorem keys_unsealedFields (put : List (String × Value) → Value) (fs : List (String × Value)) :
    Keyed.keys (unsealedFields put fs) = Keyed.keys fs := by
  induction fs with
  | nil => rfl
  | cons f rest ih => exact congrArg (f.1 :: ·) ih

mutual

theorem unsealed_of_not_holdsSealed : ∀ v : Value, v.holdsSealed = false → v.unsealed put = v
  | .list items, h => congrArg Value.list (unsealedItems_of_not_holdSealed items h)
  | .object fs, h => congrArg Value.object (unsealedFields_of_not_holdSealed fs h)
  | .sealed _, h => by cases h
  | .null, _ | .bool _, _ | .int _, _ | .float _, _ | .text _, _ => rfl

theorem unsealedItems_of_not_holdSealed : ∀ items : List Value, listHoldsSealed items = false →
    unsealedItems put items = items
  | [], _ => rfl
  | v :: rest, h => by
    rw [listHoldsSealed, Bool.or_eq_false_iff] at h
    rw [unsealedItems, unsealed_of_not_holdsSealed v h.1, unsealedItems_of_not_holdSealed rest h.2]

theorem unsealedFields_of_not_holdSealed : ∀ fs : List (String × Value), fieldsHoldSealed fs = false →
    unsealedFields put fs = fs
  | [], _ => rfl
  | (k, v) :: rest, h => by
    rw [fieldsHoldSealed, Bool.or_eq_false_iff] at h
    rw [unsealedFields, unsealed_of_not_holdsSealed v h.1, unsealedFields_of_not_holdSealed rest h.2]

end

mutual

/-- Two replacements that differ everywhere give the same only where there is nothing to replace. -/
theorem not_holdsSealed_of_unsealed_eq (differ : ∀ fs, put fs ≠ put' fs) : ∀ v : Value,
    v.unsealed put = v.unsealed put' → v.holdsSealed = false
  | .list items, h => not_listHoldsSealed_of_unsealed_eq differ items (Value.list.inj h)
  | .object fs, h => not_fieldsHoldSealed_of_unsealed_eq differ fs (Value.object.inj h)
  | .sealed fs, h => absurd h (differ fs)
  | .null, _ | .bool _, _ | .int _, _ | .float _, _ | .text _, _ => rfl

theorem not_listHoldsSealed_of_unsealed_eq (differ : ∀ fs, put fs ≠ put' fs) : ∀ items : List Value,
    unsealedItems put items = unsealedItems put' items → listHoldsSealed items = false
  | [], _ => rfl
  | v :: rest, h => by
    obtain ⟨hv, hrest⟩ := List.cons.inj h
    rw [listHoldsSealed, not_holdsSealed_of_unsealed_eq differ v hv,
      not_listHoldsSealed_of_unsealed_eq differ rest hrest, Bool.or_false]

theorem not_fieldsHoldSealed_of_unsealed_eq (differ : ∀ fs, put fs ≠ put' fs) :
    ∀ fs : List (String × Value),
      unsealedFields put fs = unsealedFields put' fs → fieldsHoldSealed fs = false
  | [], _ => rfl
  | (k, v) :: rest, h => by
    obtain ⟨hv, hrest⟩ := List.cons.inj h
    rw [fieldsHoldSealed, not_holdsSealed_of_unsealed_eq differ v (Prod.mk.inj hv).2,
      not_fieldsHoldSealed_of_unsealed_eq differ rest hrest, Bool.or_false]

end

theorem masked_eq_opened_iff {v : Value} : v.masked = v.opened ↔ v.holdsSealed = false := by
  constructor
  · exact not_holdsSealed_of_unsealed_eq (fun fs h => by cases h) v
  · intro h
    rw [masked, opened, unsealed_of_not_holdsSealed v h, unsealed_of_not_holdsSealed v h]

/-! ## What can be read -/

mutual

/-- Legibility passes to replacements that are legible. -/
theorem isLegible_unsealed
    (legible : ∀ fs, (put fs).isLegible words = true → (put' fs).isLegible words = true) :
    ∀ v : Value, (v.unsealed put).isLegible words = true → (v.unsealed put').isLegible words = true
  | .list items, h => listIsLegible_unsealed legible items h
  | .object fs, h => by
    rw [unsealed, isLegible, keys_unsealedFields, Bool.and_eq_true] at h ⊢
    exact ⟨h.1, fieldsAreLegible_unsealed legible fs h.2⟩
  | .sealed fs, h => legible fs h
  | .null, h | .bool _, h | .int _, h | .float _, h | .text _, h => h

theorem listIsLegible_unsealed
    (legible : ∀ fs, (put fs).isLegible words = true → (put' fs).isLegible words = true) :
    ∀ items : List Value, listIsLegible words (unsealedItems put items) = true →
      listIsLegible words (unsealedItems put' items) = true
  | [], _ => rfl
  | v :: rest, h => by
    rw [unsealedItems, listIsLegible, Bool.and_eq_true] at h ⊢
    exact ⟨isLegible_unsealed legible v h.1, listIsLegible_unsealed legible rest h.2⟩

theorem fieldsAreLegible_unsealed
    (legible : ∀ fs, (put fs).isLegible words = true → (put' fs).isLegible words = true) :
    ∀ fs : List (String × Value), fieldsAreLegible words (unsealedFields put fs) = true →
      fieldsAreLegible words (unsealedFields put' fs) = true
  | [], _ => rfl
  | (k, v) :: rest, h => by
    rw [unsealedFields, fieldsAreLegible, Bool.and_eq_true] at h ⊢
    exact ⟨isLegible_unsealed legible v h.1, fieldsAreLegible_unsealed legible rest h.2⟩

end

mutual

theorem isShowable_unsealed (same : ∀ fs, (put fs).isShowable = (Value.sealed fs).isShowable) :
    ∀ v : Value, (v.unsealed put).isShowable = v.isShowable
  | .list items => itemsAreShowable_unsealed same items
  | .object fs => fieldsAreShowable_unsealed same fs
  | .sealed fs => same fs
  | .null | .bool _ | .int _ | .float _ | .text _ => rfl

theorem itemsAreShowable_unsealed (same : ∀ fs, (put fs).isShowable = (Value.sealed fs).isShowable) :
    ∀ items : List Value, itemsAreShowable (unsealedItems put items) = itemsAreShowable items
  | [] => rfl
  | v :: rest => by
    rw [unsealedItems, itemsAreShowable, itemsAreShowable, isShowable_unsealed same v,
      itemsAreShowable_unsealed same rest]

theorem fieldsAreShowable_unsealed (same : ∀ fs, (put fs).isShowable = (Value.sealed fs).isShowable) :
    ∀ fs : List (String × Value), fieldsAreShowable (unsealedFields put fs) = fieldsAreShowable fs
  | [] => rfl
  | (k, v) :: rest => by
    rw [unsealedFields, fieldsAreShowable, fieldsAreShowable, isShowable_unsealed same v,
      fieldsAreShowable_unsealed same rest]

end

/-- A value whose sealed objects are legible as data has a text. -/
theorem isShowable_of_opened {v : Value} (h : v.opened.isLegible words = true) : v.isShowable = true := by
  have hsame : v.opened.isShowable = v.isShowable :=
    isShowable_unsealed (fun fs => show (Value.object fs).isShowable = _ from rfl) v
  have hreadable := isReadable_of_isLegible h
  rw [isReadable_eq, Bool.and_eq_true, hsame] at hreadable
  exact hreadable.1

theorem not_holdsSealed_of_isLegible {v : Value} (h : v.isLegible words = true) : v.holdsSealed = false := by
  have hreadable := isReadable_of_isLegible h
  rw [isReadable_eq, Bool.and_eq_true, Bool.not_eq_true'] at hreadable
  exact hreadable.2

theorem forall_opened_of_listIsLegible {items : List Value}
    (h : listIsLegible words (unsealedItems .object items) = true) :
    ∀ v ∈ items, v.opened.isLegible words = true := by
  induction items with
  | nil => exact List.forall_mem_nil _
  | cons v rest ih =>
    rw [unsealedItems, listIsLegible, Bool.and_eq_true] at h
    exact List.forall_mem_cons.mpr ⟨h.1, ih h.2⟩

theorem forall_opened_of_fieldsAreLegible {fs : List (String × Value)}
    (h : fieldsAreLegible words (unsealedFields .object fs) = true) :
    ∀ f ∈ fs, f.2.opened.isLegible words = true := by
  induction fs with
  | nil => exact List.forall_mem_nil _
  | cons f rest ih =>
    rw [unsealedFields, fieldsAreLegible, Bool.and_eq_true] at h
    exact List.forall_mem_cons.mpr ⟨h.1, ih h.2⟩

theorem opened_isLegible {v : Value} (h : v.isLegible words = true) : v.opened.isLegible words = true := by
  rwa [opened, unsealed_of_not_holdsSealed v (not_holdsSealed_of_isLegible h)]

theorem inherited_opened_isLegible : Inherited fun v => v.opened.isLegible words = true where
  item h := forall_opened_of_listIsLegible h
  field {v fs} hfs h := by
    cases v with
    | object =>
      cases hfs
      exact forall_opened_of_fieldsAreLegible ((Bool.and_eq_true _ _).mp h).2
    | «sealed» =>
      cases hfs
      have hfields := ((isLegible_object _).mp h).2
      exact fun f hf => opened_isLegible (hfields f hf)
    | _ => cases hfs

theorem listHoldsSealed_eq_false_iff {items : List Value} :
    listHoldsSealed items = false ↔ ∀ v ∈ items, v.holdsSealed = false := by
  induction items with
  | nil => simp [listHoldsSealed]
  | cons v rest ih => rw [listHoldsSealed, Bool.or_eq_false_iff, ih, List.forall_mem_cons]

theorem fieldsHoldSealed_eq_false_iff {fs : List (String × Value)} :
    fieldsHoldSealed fs = false ↔ ∀ f ∈ fs, f.2.holdsSealed = false := by
  induction fs with
  | nil => simp [fieldsHoldSealed]
  | cons f rest ih => rw [fieldsHoldSealed, Bool.or_eq_false_iff, ih, List.forall_mem_cons]

theorem inherited_not_holdsSealed : Inherited fun v => v.holdsSealed = false where
  item h := listHoldsSealed_eq_false_iff.mp h
  field {v fs} hfs h := by
    cases v with
    | object =>
      cases hfs
      exact fieldsHoldSealed_eq_false_iff.mp h
    | «sealed» => cases h
    | _ => cases hfs

end Value

/-! ## What is written -/

namespace Json

open Value

variable {put : List (String × Value) → Value} {st : Style}

mutual

theorem writeAt_unsealed (same : ∀ fs depth, writeAt st depth (put fs) = writeAt st depth (.sealed fs)) :
    ∀ (v : Value) (depth : Nat), writeAt st depth (v.unsealed put) = writeAt st depth v
  | .list [], _ => rfl
  | .list (v :: rest), depth => by
    rw [unsealed, unsealedItems, writeAt, writeAt, writeAt_unsealed same v,
      writeItems_unsealed same rest]
  | .object [], _ => rfl
  | .object ((k, v) :: rest), depth => by
    rw [unsealed, unsealedFields, writeAt, writeAt, writeField, writeField, writeAt_unsealed same v,
      writeFields_unsealed same rest]
  | .sealed fs, depth => same fs depth
  | .null, _ | .bool _, _ | .int _, _ | .float _, _ | .text _, _ => rfl

theorem writeItems_unsealed
    (same : ∀ fs depth, writeAt st depth (put fs) = writeAt st depth (.sealed fs)) :
    ∀ (items : List Value) (depth : Nat),
      writeItems st depth (unsealedItems put items) = writeItems st depth items
  | [], _ => rfl
  | v :: rest, depth => by
    rw [unsealedItems, writeItems, writeItems, writeAt_unsealed same v, writeItems_unsealed same rest]

theorem writeFields_unsealed
    (same : ∀ fs depth, writeAt st depth (put fs) = writeAt st depth (.sealed fs)) :
    ∀ (fs : List (String × Value)) (depth : Nat),
      writeFields st depth (unsealedFields put fs) = writeFields st depth fs
  | [], _ => rfl
  | (k, v) :: rest, depth => by
    rw [unsealedFields, writeFields, writeFields, writeField, writeField, writeAt_unsealed same v,
      writeFields_unsealed same rest]

end

/-- The document of a value is read as the value with texts in the place of its sealed objects. -/
theorem read?_write_plain {v : Value} (h : v.opened.isLegible true = true) :
    read? (write .plain v) = some v.masked := by
  have hmasked : v.masked.isLegible true = true := isLegible_unsealed (fun _ _ => rfl) v h
  have hwrite : writeAt .plain 0 v.masked = writeAt .plain 0 v := writeAt_unsealed
    (fun fs depth => show writeAt .plain depth (.text (displayed (.sealed fs))) = _ from rfl) v 0
  have hread := read?_ofList plain_isRegular hmasked
  rwa [hwrite] at hread

end Json

/-! ## What is put in the place of a placeholder -/

/-- The data of a scope are documents: the payload, and the outputs but for sealed objects in them. -/
structure Scope.IsLegible (s : Scope) : Prop where
  trigger : (Value.object s.trigger).isLegible true = true
  bindings : ∀ b ∈ s.bindings, b.2.opened.isLegible true = true

namespace Template

open Outcome

variable {s : Scope} {input v : Value} {e : String}

theorem spelled_of_wordless (other : ∀ t, v ≠ .text t) : spelled v = Json.write .plain v := by
  unfold spelled
  split
  · exact absurd rfl (other _)
  · rfl

theorem legible_templateContext (legible : s.IsLegible) (given : input.opened.isLegible true = true) :
    ∀ f ∈ s.templateContext input, f.2.opened.isLegible true = true := by
  intro f hf
  rcases Keyed.mem_of_mem_put hf with rfl | hf
  · exact given
  rcases Keyed.mem_of_mem_put hf with rfl | hf
  · exact legible.trigger
  · exact legible.bindings f hf

/-- Where all else is without sealed objects, only the payload as a whole is one. -/
theorem holdsSealed_iff (legible : s.IsLegible) (outputs : ∀ b ∈ s.bindings, b.2.holdsSealed = false)
    (plain : input.holdsSealed = false) (found : resolve (s.templateContext input) e = .ok v) :
    v.holdsSealed = true ↔ Text.cut '.' e = (Scope.triggerName, "") := by
  obtain ⟨root, hroot, hv⟩ := resolve_eq_ok_iff.mp found
  rw [Scope.get?_templateContext] at hroot
  rcases hcut : Text.cut '.' e with ⟨name, path⟩
  rw [hcut] at hroot hv
  dsimp only at hroot hv
  rw [Prod.mk.injEq]
  have unsealedRoot (h : root.holdsSealed = false) : v.holdsSealed ≠ true := by
    rw [Value.inherited_not_holdsSealed.below h hv]
    exact Bool.false_ne_true
  by_cases hinput : name = "input"
  · rw [if_pos hinput] at hroot
    cases hroot
    refine iff_of_false (unsealedRoot plain) ?_
    rintro ⟨htrigger, -⟩
    rw [hinput] at htrigger
    exact absurd htrigger (by decide)
  rw [if_neg hinput, Scope.root?] at hroot
  by_cases htrigger : name = Scope.triggerName
  · rw [if_pos htrigger] at hroot
    cases hroot
    unfold Scope.below at hv
    split at hv
    · rename_i hempty
      cases hv
      exact iff_of_true rfl ⟨htrigger, String.isEmpty_iff.mp hempty⟩
    · rename_i hpath
      have hfields := (Value.isLegible_object _).mp legible.trigger
      have hsealed : v.holdsSealed = false := Value.inherited_not_holdsSealed.lookup
        (fun f hf => Value.not_holdsSealed_of_isLegible (hfields.2 f hf)) hv
      refine iff_of_false (by rw [hsealed]; exact Bool.false_ne_true) ?_
      rintro ⟨-, rfl⟩
      exact hpath rfl
  · rw [if_neg htrigger] at hroot
    refine iff_of_false (unsealedRoot (outputs _ (Keyed.mem_of_get? hroot))) ?_
    rintro ⟨h, -⟩
    exact htrigger h

theorem render_longer {l : Line} {value : String → Value} (legible : s.IsLegible)
    (given : input.opened.isLegible true = true) (proper : l.IsProper) (longer : l.only? = none)
    (found : ∀ e ∈ l.expressions, resolve (s.templateContext input) e = .ok (value e)) :
    render (s.templateContext input) (.text l.text) = .ok (.text (l.spelledOut value)) := by
  have context := legible_templateContext legible given
  have showable : ∀ f ∈ s.templateContext input, f.2.isShowable = true :=
    fun f hf => Value.isShowable_of_opened (context f hf)
  have texts : ∀ e ∈ l.enclosed, HasText (s.templateContext input) e :=
    fun _ _ _ hv => Value.inherited_isShowable.resolve showable hv
  rw [render, (Line.follows_renderText texts proper).ok value found, Line.filled, longer]

/-- In a longer text, a value that is no text stands as a document that is read as the value, with its sealed
objects as the data they share, exactly if there are none in it. If the outputs and the input have none,
only the payload as a whole is one, and everything else is read back. -/
theorem embedded_reads_iff {l : Line} {value : String → Value} (legible : s.IsLegible)
    (given : input.opened.isLegible true = true) (proper : l.IsProper) (longer : l.only? = none)
    (found : ∀ e ∈ l.expressions, resolve (s.templateContext input) e = .ok (value e)) :
    render (s.templateContext input) (.text l.text) = .ok (.text (l.spelledOut value)) ∧
      ∀ e ∈ l.expressions, (∀ t, value e ≠ .text t) →
        (Json.read? (spelled (value e)) = some (value e).opened ↔ (value e).holdsSealed = false) ∧
        ((∀ b ∈ s.bindings, b.2.holdsSealed = false) → input.holdsSealed = false →
          ((value e).holdsSealed = true ↔ Text.cut '.' e = (Scope.triggerName, ""))) := by
  refine ⟨render_longer legible given proper longer found, fun e he other => ⟨?_, ?_⟩⟩
  · have hopened : (value e).opened.isLegible true = true :=
      Value.inherited_opened_isLegible.resolve (legible_templateContext legible given) (found e he)
    rw [spelled_of_wordless other, Json.read?_write_plain hopened, Option.some.injEq,
      Value.masked_eq_opened_iff]
  · exact fun outputs plain => holdsSealed_iff legible outputs plain (found e he)

/-- A payload at the start of a run. -/
def gauge : Fields := [("level", .int 21)]

/-- A text that ends with what a name stands for. -/
def summary (name : String) : Line := ⟨"all=".toList, [({ name := name.toList }, [])]⟩

theorem gauge_isLegible : (Scope.start gauge).IsLegible := ⟨by decide +kernel, List.forall_mem_nil _⟩

theorem gauge_opened_isLegible : (Value.object gauge).opened.isLegible true = true := by decide +kernel

theorem summary_isProper {name : String} (nonempty : name.toList ≠ [])
    (plain : (name.toList.all fun c => !isBrace c && !Text.isBlank c) = true) :
    (summary name).IsProper := by
  have hplain : ∀ c ∈ name.toList, isBrace c = false ∧ Text.isBlank c = false := by
    simpa [List.all_eq_true] using plain
  have slot : Slot.IsProper { name := name.toList } := ⟨List.forall_mem_nil _, List.forall_mem_nil _,
    nonempty, fun c hc => (hplain c hc).1, Text.isBare_of_blankless fun c hc => (hplain c hc).2⟩
  exact ⟨show IsLiteral "all=".toList by decide, List.forall_mem_singleton.mpr slot,
    List.forall_mem_singleton.mpr (show IsLiteral [] by decide)⟩

theorem trigger_isProper : (summary "trigger").IsProper := summary_isProper (by decide) rfl

theorem trigger_found : ∀ e ∈ (summary "trigger").expressions,
    resolve ((Scope.start gauge).templateContext (.object gauge)) e = .ok (.sealed gauge) :=
  List.forall_mem_singleton.mpr rfl

theorem gauge_embedded :
    (∀ e ∈ (summary "trigger").expressions,
      resolve ((Scope.start gauge).templateContext (.object gauge)) e = .ok (.sealed gauge)) ∧
    render ((Scope.start gauge).templateContext (.object gauge)) (.text (summary "trigger").text) =
      .ok (.text ((summary "trigger").spelledOut fun _ => .sealed gauge)) ∧
    ∀ e ∈ (summary "trigger").expressions, (∀ t, Value.sealed gauge ≠ .text t) →
      (Json.read? (spelled (.sealed gauge)) = some (Value.sealed gauge).opened ↔
        (Value.sealed gauge).holdsSealed = false) ∧
      ((∀ b ∈ (Scope.start gauge).bindings, b.2.holdsSealed = false) →
        (Value.object gauge).holdsSealed = false →
        ((Value.sealed gauge).holdsSealed = true ↔ Text.cut '.' e = (Scope.triggerName, ""))) :=
  ⟨trigger_found,
    embedded_reads_iff gauge_isLegible gauge_opened_isLegible trigger_isProper rfl trigger_found⟩

/-- The payload as a whole is read as a text, the same data under the name of the input as the data. -/
theorem gauge_misread :
    render ((Scope.start gauge).templateContext (.object gauge))
      (.text "all=\x7b\x7btrigger\x7d\x7d") = .ok (.text "all=\"\x7b'level': 21\x7d\"") ∧
    Json.read? "\"\x7b'level': 21\x7d\"" = some (.text "\x7b'level': 21\x7d") ∧
    render ((Scope.start gauge).templateContext (.object gauge))
      (.text "all=\x7b\x7binput\x7d\x7d") = .ok (.text "all=\x7b\"level\": 21\x7d") ∧
    Json.read? "\x7b\"level\": 21\x7d" = some (.object gauge) := by
  have input : (summary "input").IsProper := summary_isProper (by decide) rfl
  have inputFound : ∀ e ∈ (summary "input").expressions,
      resolve ((Scope.start gauge).templateContext (.object gauge)) e = .ok (.object gauge) :=
    List.forall_mem_singleton.mpr rfl
  have shown : (summary "trigger").spelledOut (fun _ => .sealed gauge) =
      "all=\"\x7b'level': 21\x7d\"" := by decide +kernel
  have told : (summary "input").spelledOut (fun _ => .object gauge) =
      "all=\x7b\"level\": 21\x7d" := by decide +kernel
  have quoted : Json.write .plain (.text "\x7b'level': 21\x7d") = "\"\x7b'level': 21\x7d\"" := by
    decide +kernel
  have written : Json.write .plain (.object gauge) = "\x7b\"level\": 21\x7d" := by decide +kernel
  refine ⟨?_, ?_, ?_, ?_⟩
  · rw [← shown]
    exact render_longer gauge_isLegible gauge_opened_isLegible trigger_isProper rfl trigger_found
  · rw [← quoted]
    exact Json.read?_write_plain rfl
  · rw [← told]
    exact render_longer gauge_isLegible gauge_opened_isLegible input rfl inputFound
  · rw [← written]
    exact Json.read?_write_plain gauge_opened_isLegible

end Template

end Conveyor
