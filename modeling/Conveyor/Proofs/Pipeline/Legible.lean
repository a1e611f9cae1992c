import Conveyor.Proofs.Pipeline.Reload
import Conveyor.Proofs.Schema.Legible

/-!
# Loading legible documents

Every workflow that is read from a legible document is legible, and the document in a text always
is. So a workflow that was loaded from a text can be saved again, unless its values are nested too
deep.
-/

namespace Conveyor

open Schema

/-! ## Fields -/

namespace Wire

variable {α : Type} {fields more : List (String × Option Value)}

/-- A record's fields that are legible if they are there. -/
def AllLegible (fields : List (String × Option Value)) : Prop := ∀ f ∈ fields, IsLegible f.2

@[simp] theorem allLegible_nil : AllLegible [] := List.forall_mem_nil _

@[simp] theorem allLegible_cons {f : String × Option Value} :
    AllLegible (f :: fields) ↔ IsLegible f.2 ∧ AllLegible fields := List.forall_mem_cons

@[simp] theorem allLegible_append :
    AllLegible (fields ++ more) ↔ AllLegible fields ∧ AllLegible more := List.forall_mem_append

@[simp] theorem isLegible_some {v : Value} : IsLegible (some v) ↔ v.isLegible true = true := by
  constructor
  · exact fun h => h v rfl
  · rintro h _ ⟨⟩
    exact h

@[simp] theorem isLegible_textOf (s : String) : (Value.text s).isLegible true = true := rfl

@[simp] theorem isLegible_flag (b : Bool) : (Value.bool b).isLegible true = true := rfl

@[simp] theorem isLegible_text (o : Option String) : IsLegible (text o) := by
  intro v hv
  obtain ⟨s, -, rfl⟩ := Option.map_eq_some_iff.mp hv
  rfl

@[simp] theorem isLegible_named (name : α → String) (o : Option α) : IsLegible (named name o) := by
  intro v hv
  obtain ⟨a, -, rfl⟩ := Option.map_eq_some_iff.mp hv
  rfl

/-- A record is legible if its fields are. -/
theorem isLegible_record (hnames : (fields.map (·.1)).Nodup) (h : AllLegible fields) :
    (Value.object (present fields)).isLegible true = true :=
  (Value.isLegible_object _).mpr ⟨hnames.sublist (keys_present fields),
    fun f hf => h _ (mem_present.mp hf) f.2 rfl⟩

theorem isLegible_records {wire : α → Value} {items : List α}
    (h : ∀ a ∈ items, (wire a).isLegible true = true) :
    (Value.list (items.map wire)).isLegible true = true :=
  (Value.isLegible_list _).mpr (List.forall_mem_map.mpr h)

end Wire

open Wire

/-! ## Records -/

theorem SapConfig.isLegible_wire (c : SapConfig) : c.wire.isLegible true = true := by
  refine isLegible_record (by simp only [List.map_cons, List.map_nil]; decide) ?_
  simp

section

variable {fs : Fields} (hfs : ∀ f ∈ fs, f.2.isLegible true = true)

include hfs

theorem integer_yields (name : String) :
    (optional fs name integer).Yields fun o => IsLegible (Wire.int o) :=
  optional_yields hfs keeps_integer

/-- An object setting is legible as itself or inside a text. -/
theorem setting_yields (name : String) {α : Type} {read : Reading α} {enc : α → Value}
    (hread : Keeps (fun a => (enc a).isLegible true = true) read) :
    (withDefault fs name (settingsReading read) none).Yields
      fun o => IsLegible (o.map fun m => .object (m.mapValues enc)) :=
  withDefault_yields hfs (keeps_orDocument (keeps_nullable (keeps_objectOf hread)))
    (by rintro _ ⟨⟩)

theorem fields_yields (name : String) :
    (withDefault fs name (settingsReading anything) none).Yields
      fun o => IsLegible (Wire.fields o) := by
  have h := @setting_yields _ hfs name _ anything id keeps_anything
  simpa [Keyed.mapValues, Wire.fields] using h

theorem FieldMapping.read_yields :
    (FieldMapping.read fs).Yields fun m => m.wire.isLegible true = true := by
  refine .seq (.any _) (.seq (withDefault_yields hfs keeps_anything rfl) (.seq (.any _)
    (.seq (.any _) (.seq (.any _) (.seq (.any _) (.map (.any _) ?_))))))
  intro source _ column _ dataType _ transform _ param _ default hdefault handling _
  refine isLegible_record (by simp only [List.map_cons, List.map_nil]; decide) ?_
  have hshown : IsLegible (if default.isNull then none else some default) := by
    split
    · rintro _ ⟨⟩
    · exact isLegible_some.mpr hdefault
  simp [hshown]

theorem mappings_yields (name : String) :
    (withDefault fs name mappingsReading []).Yields
      fun ms => (mappingsWire ms).isLegible true = true := by
  intro ms hms
  refine isLegible_records (withDefault_yields hfs (keeps_listOf (keeps_record ?_)) ?_ ms hms)
  · exact fun fs hfs => FieldMapping.read_yields hfs
  · exact List.forall_mem_nil _

theorem RestSettings.read_yields :
    (RestSettings.read fs).Yields fun s => AllLegible s.wireFields := by
  refine .seq (.any _) (.seq (.any _) (.seq (.any _) (.map (integer_yields hfs _) ?_)))
  intro id hid method _ path _ template _
  simp [wireFields, hid]

theorem DatabaseSettings.read_yields :
    (DatabaseSettings.read fs).Yields fun s => AllLegible s.wireFields := by
  refine .seq (.any _) (.seq (.any _) (.seq (.any _) (.seq (.any _) (.seq (.any _)
    (.map (integer_yields hfs _) ?_)))))
  intro id hid operation _ table _ key _ query _ dialect _
  simp [wireFields, hid]

theorem SapSettings.read_yields :
    (SapSettings.read fs).Yields fun s => AllLegible s.wireFields := by
  refine .seq (.any _) (.seq (.any _) (.seq (.any _) (.seq (.any _)
    (.map (integer_yields hfs _) ?_))))
  intro id hid operation _ schema _ table _ key _
  simp [wireFields, hid]

theorem BranchSettings.read_yields :
    (BranchSettings.read fs).Yields fun s => AllLegible s.wireFields := by
  refine .seq (integer_yields hfs _) (.seq (integer_yields hfs _)
    (.map (fields_yields hfs _) ?_))
  intro expression hexpression onTrue htrue onFalse hfalse
  simp [wireFields, hexpression, htrue, hfalse]

theorem Step.read_yields : (Step.read fs).Yields fun s => s.wire.isLegible true = true := by
  refine .seq (optional_yields hfs keeps_number) (.seq (BranchSettings.read_yields hfs)
    (.seq (setting_yields hfs _ keeps_text) (.seq (SapSettings.read_yields hfs)
    (.seq (DatabaseSettings.read_yields hfs) (.seq (RestSettings.read_yields hfs)
    (.seq (mappings_yields hfs _) (.seq (.any _) (.seq (fields_yields hfs _) (.seq (.any _)
    (.seq (withDefault_yields hfs keeps_number (by decide))
    (.seq (withDefault_yields hfs keeps_integer (by decide)) (.seq (.any _) (.seq (.any _)
    (.seq (.any _) (.map (required_yields hfs keeps_integer) ?_)))))))))))))))
  intro order horder name _ kind _ policy _ retries hretries timeout htimeout active _ input hinput
    output _ mappings hmappings rest hrest database hdatabase sap hsap renames hrenames branch
    hbranch delay hdelay
  refine isLegible_record ?_ ?_
  · simp only [RestSettings.wireFields, DatabaseSettings.wireFields, SapSettings.wireFields,
      BranchSettings.wireFields, List.map_append, List.map_cons, List.map_nil]
    decide
  · simp [horder, hretries, htimeout, hinput, hmappings, hrest, hdatabase, hsap, hrenames, hbranch,
      Wire.float, hdelay]

theorem Delivery.read_yields : (Delivery.read fs).Yields fun d => AllLegible d.wireFields := by
  refine .seq (withDefault_yields hfs keeps_number (by decide))
    (.seq (withDefault_yields hfs keeps_integer (by decide)) (.seq (.any _) (.seq (.any _)
    (.seq (.any _) (.seq (.any _) (.seq (.any _) (.seq (.any _) (.seq (.any _) (.seq (.any _)
    (.seq (optional_yields hfs (keeps_record fun _ _ c _ => c.isLegible_wire))
    (.seq (mappings_yields hfs _) (.map (.any _) ?_))))))))))))
  intro table _ mappings hmappings sap hsap operation _ key _ query _ dialect _ method _ path _
    active _ policy _ retries hretries timeout htimeout
  simp [wireFields, hmappings, hsap, hretries, htimeout]

theorem Pipeline.read_yields : (Pipeline.read fs).Yields fun p => p.wire.isLegible true = true := by
  refine .seq (withDefault_yields hfs
      (keeps_listOf (keeps_record fun fs hfs => Step.read_yields hfs)) (List.forall_mem_nil _))
    (.seq (Delivery.read_yields hfs) (.seq (integer_yields hfs _) (.seq (integer_yields hfs _)
    (.seq (integer_yields hfs _) (.seq (.any _) (.seq (integer_yields hfs _)
    (.seq (integer_yields hfs _) (.seq (.any _) (.seq (.any _) (.map (.any _) ?_))))))))))
  intro id _ owner _ kind _ application happlication mqtt hmqtt destination _ database hdatabase
    rest hrest sap hsap delivery hdelivery steps hsteps
  refine isLegible_record ?_ ?_
  · simp only [Delivery.wireFields, List.map_append, List.map_cons, List.map_nil]
    decide
  · simp [happlication, hmqtt, hdatabase, hrest, hsap, hdelivery, isLegible_records hsteps]

theorem Header.read_yields : (Header.read fs).Yields fun h => AllLegible h.wireFields := by
  refine .seq (withDefault_yields hfs keeps_number (by decide)) (.seq (.any _) (.seq (.any _)
    (.seq (.any _) (.seq (.any _) (.map (.any _) ?_)))))
  intro id _ name _ description _ active _ immediately _ hours hhours
  simp [wireFields, hhours]

theorem Workflow.read_yields : (Workflow.read fs).Yields fun w => w.wire.isLegible true = true := by
  refine .seq (withDefault_yields hfs
      (keeps_listOf (keeps_record fun fs hfs => Pipeline.read_yields hfs)) (List.forall_mem_nil _))
    (.map (Header.read_yields hfs) ?_)
  intro header hheader pipelines hpipelines
  refine isLegible_record ?_ ?_
  · simp only [Header.wireFields, List.map_append, List.map_cons, List.map_nil]
    decide
  · simp [hheader, isLegible_records hpipelines]

end

/-! ## Loading -/

namespace Workflow

/-- A workflow that is loaded from a text is legible. -/
theorem isLegible_of_load {s : String} {w : Workflow} (h : load (.text s) = .ok w) :
    w.wire.isLegible true = true := by
  obtain ⟨hread, -⟩ := load_eq_ok_iff.mp h
  rw [Document.read] at hread
  dsimp only at hread
  split at hread
  · rename_i v hv
    rw [Outcome.mapError_eq_ok_iff] at hread
    have hkeeps := keeps_record fun fs hfs => read_yields hfs
    cases hfit : record Workflow.read v with
    | fits loaded =>
      rw [hfit] at hread
      obtain rfl : loaded = w := Except.ok.inj hread
      exact hkeeps v (Json.isLegible_of_read? hv) loaded hfit
    | misfits ms =>
      rw [hfit] at hread
      cases hread
  · cases hread

/-- What was loaded from a text is written again, unless a value in it is nested too deep. -/
theorem exists_documentText_of_load {s : String} {w : Workflow} (h : load (.text s) = .ok w) :
    (∃ again, w.documentText = .ok again) ↔ ∀ v ∈ w.freeValues, v.depth ≤ Value.maxDepth := by
  rw [exists_documentText]
  exact ⟨fun writable => writable.flat,
    fun flat => ⟨flat, Value.isReadable_of_isLegible (isLegible_of_load h)⟩⟩

end Workflow
end Conveyor
