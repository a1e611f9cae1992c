import Conveyor.Document
import Conveyor.Proofs.Json.Canonical
import Conveyor.Proofs.Schema.Legible
import Mathlib.Data.List.TakeWhile

/-!
# Settings as texts

An object setting of a step may be given as the text of its document. The step is the same then, and so
is the graph that it is drawn in and all that comes of it (`textual_settings`). A document may have gaps
around it, that is, the four blanks that it may have between its items. With any other blank around it,
it is no document, though a text of nothing but such blanks stands for no setting at all.
-/

namespace Conveyor

/-! ## Documents with blanks around them -/

namespace Json

theorem ne_of_isBlank {c k : Char} (h : Text.isBlank c = true) (hk : Text.isBlank k = false) :
    c ≠ k := by
  rintro rfl
  rw [h] at hk
  cases hk

theorem isAsciiDigit_of_isBlank {c : Char} (h : Text.isBlank c = true) :
    isAsciiDigit c = false := by
  by_contra hdigit
  simp only [isAsciiDigit, Bool.not_eq_false, Bool.and_eq_true, decide_eq_true_eq] at hdigit
  simp only [Text.isBlank, Text.isSpacing, Text.isInformationSeparator, Bool.or_eq_true,
    Bool.and_eq_true, decide_eq_true_eq, beq_iff_eq] at h
  omega

/-- No value starts with a blank that is no gap. -/
theorem readValue_blank {c : Char} (h : Text.isBlank c = true) (hgap : isGap c = false)
    (fuel : Nat) (cs : List Char) : readValue .lenient fuel (c :: cs) = none := by
  cases fuel with
  | zero => rfl
  | succ fuel =>
    have hne : ∀ k, Text.isBlank k = false → c ≠ k := fun k => ne_of_isBlank h
    rw [readValue_plain .lenient fuel hgap (hne _ (by decide)) (hne _ (by decide))
      (hne _ (by decide))]
    have hword : (words .lenient).findSome? (fun w => (afterWord? w.1.toList (c :: cs)).map
        (w.2, ·)) = none := by
      simp [words, afterWord?, Ne.symm (hne 'n' (by decide)), Ne.symm (hne 't' (by decide)),
        Ne.symm (hne 'f' (by decide)), Ne.symm (hne 'N' (by decide)),
        Ne.symm (hne 'I' (by decide)), Ne.symm (hne '-' (by decide))]
    have hnumeral : readNumeral? (c :: cs) = none := by
      unfold readNumeral?
      split
      rename_i negative rest hsign
      split at hsign
      · rename_i heq
        exact absurd (List.cons.inj heq).1 (hne _ (by decide))
      · cases hsign
        split
        · rename_i heq
          exact absurd (List.cons.inj heq).1 (hne _ (by decide))
        · rw [List.takeWhile_cons, isAsciiDigit_of_isBlank h]
          rfl
    unfold readPlain?
    rw [hword, hnumeral]
    rfl

/-- Nor does one start behind such a blank. -/
theorem readValue_blanks {blanks : List Char} (h : ∀ c ∈ blanks, Text.isBlank c = true)
    (hgaps : blanks.all isGap = false) (fuel : Nat) (cs : List Char) :
    readValue .lenient fuel (blanks ++ cs) = none := by
  induction blanks with
  | nil => cases hgaps
  | cons c blanks ih =>
    obtain ⟨hc, hblanks⟩ := List.forall_mem_cons.mp h
    by_cases hgap : isGap c = true
    · rw [List.all_cons, hgap, Bool.true_and] at hgaps
      exact (readValue_gaps .lenient fuel (List.forall_mem_singleton.mpr hgap) _).trans
        (ih hblanks hgaps)
    · exact readValue_blank hc (Bool.not_eq_true _ ▸ hgap) fuel _

variable {st : Style} {v : Value} {before after : List Char}

theorem endsNumeral_blanks (h : ∀ c ∈ after, Text.isBlank c = true) : EndsNumeral after := by
  cases after with
  | nil => exact endsNumeral_nil
  | cons c after =>
    have hc := h c List.mem_cons_self
    exact endsNumeral_cons ⟨isAsciiDigit_of_isBlank hc, ne_of_isBlank hc (by decide),
      ne_of_isBlank hc (by decide), ne_of_isBlank hc (by decide)⟩ after

/-- A document with blanks around it is read if all of them are gaps. -/
theorem read?_framed (hst : st.IsRegular) (hv : v.isLegible st.words = true)
    (hblank : ∀ c ∈ before ++ after, Text.isBlank c = true) :
    read? (String.ofList (before ++ (writeAt st 0 v ++ after))) =
      if (before ++ after).all isGap then some v else none := by
  obtain ⟨hbefore, hafter⟩ := List.forall_mem_append.mp hblank
  rw [read?, readWith?, String.toList_ofList, List.all_append]
  simp only [Dialect.isTooDeep, reduceCtorEq, decide_false, Bool.false_and, Bool.false_eq_true,
    if_false]
  cases hgaps : before.all isGap with
  | false =>
    rw [readValue_blanks hbefore hgaps]
    rfl
  | true =>
    have hvalue := readValue_writeAt (d := .lenient) (by decide) hst v 0
      ((before ++ (writeAt st 0 v ++ after)).length + 2) after
      (Value.isReadable_of_isLegible hv) (by simp; omega) (endsNumeral_blanks hafter)
    rw [readValue_gaps _ _ (List.all_eq_true.mp hgaps), hvalue, Value.reread_of_isLegible hv]
    have hrest : (skipGaps after).isEmpty = after.all isGap := by
      rw [Bool.eq_iff_iff, List.isEmpty_iff, skipGaps, List.dropWhile_eq_nil_iff,
        List.all_eq_true]
    dsimp only
    rw [hrest]
    rfl

end Json

/-! ## Documents that differ in some fields -/

/-- The fields have the same names, and the same values but for some names, the values of which are
related. -/
def Fields.SameBut (names : List String) (R : Value → Value → Prop) (fs fs' : Fields) : Prop :=
  List.Forall₂ (fun f f' => f.1 = f'.1 ∧ (f.2 = f'.2 ∨ f.1 ∈ names ∧ R f.2 f'.2)) fs fs'

/-- Records that are the same but for fields of these names. -/
def Value.RecordsBut (names : List String) (R : Value → Value → Prop) (v v' : Value) : Prop :=
  ∃ fs fs', v = .object fs ∧ v' = .object fs' ∧ Fields.SameBut names R fs fs'

/-- Lists of as many items, each the same or related. -/
def Value.ItemsBut (R : Value → Value → Prop) (v v' : Value) : Prop :=
  ∃ items items', v = .list items ∧ v' = .list items' ∧
    List.Forall₂ (fun a b => a = b ∨ R a b) items items'

namespace Schema

variable {α : Type} {names : List String} {R : Value → Value → Prop} {fs fs' : Fields}
  {read : Reading α}

theorem get?_sameBut (h : fs.SameBut names R fs') (key : String) :
    fs.get? key = fs'.get? key ∨
      key ∈ names ∧ ∃ v v', fs.get? key = some v ∧ fs'.get? key = some v' ∧ R v v' := by
  induction h with
  | nil => exact .inl rfl
  | @cons f f' rest rest' hf _ ih =>
    obtain ⟨k, v⟩ := f
    obtain ⟨k', v'⟩ := f'
    obtain ⟨rfl, hv⟩ := hf
    by_cases hk : k = key
    · subst hk
      simp only [Keyed.get?, if_true]
      rcases hv with rfl | ⟨hmem, hR⟩
      · exact .inl rfl
      · exact .inr ⟨hmem, v, v', rfl, rfl, hR⟩
    · simp only [Keyed.get?, hk, if_false]
      exact ih

/-- A field is read the same unless it is one of those that differ. -/
theorem fieldNamed_other (h : fs.SameBut names R fs') {wire plain : String} (hwire : wire ∉ names)
    (hplain : plain ∉ names) (read : Reading α) (absent : Checked α) :
    fieldNamed fs wire plain read absent = fieldNamed fs' wire plain read absent := by
  have hget : ∀ key, key ∉ names → fs.get? key = fs'.get? key := fun key hkey =>
    (get?_sameBut h key).resolve_right fun hdiffers => hkey hdiffers.1
  rw [fieldNamed, fieldNamed, find?, find?, hget wire hwire, hget plain hplain]

/-- Nor does a difference matter that makes none for the type of the field. -/
theorem fieldNamed_same (h : fs.SameBut names R fs') (hread : ∀ v v', R v v' → read v = read v')
    (wire plain : String) (absent : Checked α) :
    fieldNamed fs wire plain read absent = fieldNamed fs' wire plain read absent := by
  unfold fieldNamed find?
  rcases get?_sameBut h wire with hsame | ⟨-, v, v', hv, hv', hR⟩
  · rw [hsame]
    rcases get?_sameBut h plain with hsame | ⟨-, v, v', hv, hv', hR⟩
    · rw [hsame]
    · cases fs'.get? wire with
      | some w => rfl
      | none =>
        rw [hv, hv']
        exact congrArg (Checked.within _) (hread v v' hR)
  · rw [hv, hv']
    exact congrArg (Checked.within _) (hread v v' hR)

theorem record_same {read : Fields → Checked α}
    (hread : ∀ fs fs', fs.SameBut names R fs' → read fs = read fs') (v v' : Value)
    (h : v.RecordsBut names R v') : record read v = record read v' := by
  obtain ⟨fs, fs', rfl, rfl, hfs⟩ := h
  exact hread fs fs' hfs

theorem listOf_same (hread : ∀ v v', R v v' → read v = read v') (v v' : Value)
    (h : v.ItemsBut R v') : listOf read v = listOf read v' := by
  obtain ⟨items, items', rfl, rfl, hitems⟩ := h
  have hmarks : ∀ mark : Nat → Mark, (items.mapIdx fun i v => (read v).within (mark i)) =
      items'.mapIdx fun i v => (read v).within (mark i) := by
    induction hitems with
    | nil => exact fun _ => rfl
    | @cons a b _ _ hab _ ih =>
      intro mark
      have hread : read a = read b := by
        rcases hab with rfl | hR
        · rfl
        · exact hread a b hR
      rw [List.mapIdx_cons, List.mapIdx_cons, hread]
      exact congrArg (_ :: ·) (ih fun i => mark (i + 1))
  exact congrArg Checked.all (hmarks .index)

end Schema

/-! ## Settings -/

/-- The text is the document of the object, in any regular layout, between these characters. The styles
for values inside other texts and for canonical documents are regular (`Json.plain_isRegular`,
`Json.canonical_isRegular`): they differ in the blanks behind commas and colons. -/
def IsFramed (before after : List Char) (fs : Fields) (s : String) : Prop :=
  ∃ st : Json.Style, st.IsRegular ∧
    s = String.ofList (before ++ (Json.writeAt st 0 (.object fs) ++ after))

/-- The first is a text of the second, an object that a document can hold: its document, with any gaps
before and after. -/
def RetoldSetting (v v' : Value) : Prop :=
  ∃ s fs before after, v = .text s ∧ v' = .object fs ∧ (Value.object fs).isPortable = true ∧
    (before ++ after).all Json.isGap = true ∧ IsFramed before after fs s

/-- The names of the settings that may be texts. -/
def settingNames : List String :=
  ["inputMapping", "input_mapping", "transformExpression", "transform_expression",
    "conditionExpression", "condition_expression"]

/-- Steps that differ in such settings only. -/
def RetoldStep : Value → Value → Prop := Value.RecordsBut settingNames RetoldSetting

def RetoldEdge : Value → Value → Prop := Value.RecordsBut ["steps"] (Value.ItemsBut RetoldStep)

def RetoldGraph : Value → Value → Prop := Value.RecordsBut ["edges"] (Value.ItemsBut RetoldEdge)

open Schema

theorem isBlank_of_isGap {c : Char} (h : Json.isGap c = true) : Text.isBlank c = true := by
  simp only [Json.isGap, Bool.or_eq_true, decide_eq_true_eq] at h
  rcases h with ((rfl | rfl) | rfl) | rfl <;> decide

/-- A setting given as the document of an object between blanks is the object, if the blanks are
gaps. -/
theorem settingsReading_framed {α : Type} (read : Reading α) {before after : List Char}
    {fs : Fields} {s : String} (hportable : (Value.object fs).isPortable = true)
    (hblank : ∀ c ∈ before ++ after, Text.isBlank c = true) (hs : IsFramed before after fs s) :
    settingsReading read (.text s) =
      if (before ++ after).all Json.isGap then settingsReading read (.object fs)
      else .refuse .unreadableDocument := by
  obtain ⟨st, hst, rfl⟩ := hs
  have hbrace : '\x7b' ∈ Json.writeAt st 0 (.object fs) := by
    cases fs <;> simp [Json.writeAt]
  have hgiven : Text.isBlankText
      (String.ofList (before ++ (Json.writeAt st 0 (.object fs) ++ after))) = false := by
    rw [Text.isBlankText, String.toList_ofList]
    exact List.all_eq_false.mpr ⟨'\x7b',
      List.mem_append_right _ (List.mem_append_left _ hbrace), by decide⟩
  rw [settingsReading, orDocument, hgiven,
    Json.read?_framed hst (Value.isLegible_of_isPortable hportable) hblank]
  cases (before ++ after).all Json.isGap <;> rfl

theorem settingsReading_same {α : Type} (read : Reading α) (v v' : Value) (h : RetoldSetting v v') :
    settingsReading read v = settingsReading read v' := by
  obtain ⟨s, fs, before, after, rfl, rfl, hportable, hgaps, hs⟩ := h
  have hblank : ∀ c ∈ before ++ after, Text.isBlank c = true := fun c hc =>
    isBlank_of_isGap (List.all_eq_true.mp hgaps c hc)
  rw [settingsReading_framed read hportable hblank hs, if_pos hgaps]

/-! ## Steps -/

theorem Step.read_same {fs fs' : Fields} (h : fs.SameBut settingNames RetoldSetting fs') :
    Step.read fs = Step.read fs' := by
  have hsetting : ∀ {α : Type} (read : Reading α) (wire plain : String) absent,
      fieldNamed fs wire plain (settingsReading read) absent =
        fieldNamed fs' wire plain (settingsReading read) absent := fun read =>
    fieldNamed_same h (settingsReading_same read)
  unfold Step.read RestSettings.read DatabaseSettings.read SapSettings.read BranchSettings.read
    required Schema.optional withDefault
  simp (disch := decide) only [fieldNamed_other h, hsetting]

/-- The settings of a step that is read fit. -/
theorem Step.settings_of_read {fs : Fields} {s : Step} (h : Step.read fs = .fits s) :
    (∃ o, withDefault fs "inputMapping" (settingsReading anything) none = .fits o) ∧
      (∃ o, withDefault fs "transformExpression" (settingsReading text) none = .fits o) ∧
      ∃ o, withDefault fs "conditionExpression" (settingsReading anything) none = .fits o := by
  have hfits : ∀ {α : Type} (x : Checked α), x.Yields fun _ => ∃ a, x = .fits a :=
    fun x a hx => ⟨a, hx⟩
  have hbranch : (BranchSettings.read fs).Yields fun _ =>
      ∃ o, withDefault fs "conditionExpression" (settingsReading anything) none = .fits o :=
    .seq (.any _) (.seq (.any _) (.map (hfits _) fun _ hcondition _ _ _ _ => hcondition))
  have hstep : (Step.read fs).Yields fun _ =>
      (∃ o, withDefault fs "inputMapping" (settingsReading anything) none = .fits o) ∧
        (∃ o, withDefault fs "transformExpression" (settingsReading text) none = .fits o) ∧
        ∃ o, withDefault fs "conditionExpression" (settingsReading anything) none = .fits o := by
    refine .seq (.any _) (.seq hbranch (.seq (hfits _) (.seq (.any _) (.seq (.any _) (.seq (.any _)
      (.seq (.any _) (.seq (.any _) (.seq (hfits _) (.seq (.any _) (.seq (.any _) (.seq (.any _)
        (.seq (.any _) (.seq (.any _) (.seq (.any _) (.map (.any _) ?_)))))))))))))))
    intro _ _ _ _ _ _ _ _ _ _ _ _ _ _ _ hinput _ _ _ _ _ _ _ _ _ _ _ htransform _ hbranch _ _
    exact ⟨hinput, htransform, hbranch⟩
  exact hstep s h

/-- A step is refused if one of its settings is a document between blanks that are not all gaps. -/
theorem Step.read_ne_fits {fs fields : Fields} {name key s : String} {before after : List Char}
    (hname : name ∈ ["inputMapping", "transformExpression", "conditionExpression"])
    (given : find? fs name (plainName name) = some (key, .text s))
    (hportable : (Value.object fields).isPortable = true)
    (hblank : ∀ c ∈ before ++ after, Text.isBlank c = true) (hs : IsFramed before after fields s)
    (hother : (before ++ after).all Json.isGap = false) (step : Step) :
    Step.read fs ≠ .fits step := by
  intro hstep
  have hrefused : ∀ {α : Type} (read : Reading α) o,
      withDefault fs name (settingsReading read) none ≠ .fits o := by
    intro α read o hfits
    rw [withDefault, fieldNamed, given] at hfits
    dsimp only at hfits
    rw [settingsReading_framed read hportable hblank hs, hother] at hfits
    cases hfits
  obtain ⟨⟨_, hinput⟩, ⟨_, htransform⟩, ⟨_, hcondition⟩⟩ := Step.settings_of_read hstep
  simp only [List.mem_cons, List.not_mem_nil, or_false] at hname
  rcases hname with rfl | rfl | rfl
  · exact hrefused _ _ hinput
  · exact hrefused _ _ htransform
  · exact hrefused _ _ hcondition

/-! ## Graphs -/

theorem GraphEdge.read_same {fs fs' : Fields}
    (h : fs.SameBut ["steps"] (Value.ItemsBut RetoldStep) fs') :
    GraphEdge.read fs = GraphEdge.read fs' := by
  have hsteps := fieldNamed_same h (listOf_same (record_same fun _ _ => Step.read_same))
  unfold GraphEdge.read required Schema.optional withDefault stepsReading
  simp (disch := decide) only [fieldNamed_other h, hsteps]

theorem AuthoringGraph.read_same {fs fs' : Fields}
    (h : fs.SameBut ["edges"] (Value.ItemsBut RetoldEdge) fs') :
    AuthoringGraph.read fs = AuthoringGraph.read fs' := by
  have hedges := fieldNamed_same h (listOf_same (record_same fun _ _ => GraphEdge.read_same))
  unfold AuthoringGraph.read required withDefault
  simp (disch := decide) only [fieldNamed_other h, hedges]

/-- The value of a document, if its text is one. -/
def Document.value? : Document → Option Value
  | .text s => Json.read? s
  | .value v => some v

theorem Document.read_of_value? {α : Type} {d : Document} {v : Value} (h : d.value? = some v)
    (read : Fields → Checked α) :
    d.read read = (record read v).toExcept.mapError .misfits := by
  cases d with
  | value w =>
    cases h
    rfl
  | text s =>
    unfold Document.read
    dsimp only
    rw [show Json.read? s = some v from h]

/-- The text of the workflow that the graph of a document compiles to. -/
def Document.compiledText (d : Document) : Except Failure String := do
  let g ← AuthoringGraph.load d
  let w ← g.compile
  w.documentText.mapError .fault

/-- Graphs with objects for texts are loaded and compiled the same. -/
theorem Document.load_same {d d' : Document} {v v' : Value} (hd : d.value? = some v)
    (hd' : d'.value? = some v') (h : RetoldGraph v v') :
    AuthoringGraph.load d = AuthoringGraph.load d' := by
  have hsame := record_same (fun _ _ => AuthoringGraph.read_same) v v' h
  rw [AuthoringGraph.load, AuthoringGraph.load, read_of_value? hd, read_of_value? hd', hsame]

/-- A step is read the same, or refused the same, whether its object settings are objects or their
documents with gaps around them; and a graph is loaded and compiled the same, whichever the settings of
its steps are. With blanks around it that are not all gaps, a document is refused as a setting. -/
theorem textual_settings :
    (∀ fs fs' : Fields, fs.SameBut settingNames RetoldSetting fs' → Step.read fs = Step.read fs') ∧
    (∀ (d d' : Document) (v v' : Value), d.value? = some v → d'.value? = some v' →
      RetoldGraph v v' →
      AuthoringGraph.load d = AuthoringGraph.load d' ∧ d.compiledText = d'.compiledText) ∧
    (∀ (fs fields : Fields) (name key s : String) (before after : List Char),
      name ∈ ["inputMapping", "transformExpression", "conditionExpression"] →
      find? fs name (plainName name) = some (key, .text s) →
      (Value.object fields).isPortable = true → IsFramed before after fields s →
      (∀ c ∈ before ++ after, Text.isBlank c = true) →
      (before ++ after).all Json.isGap = false →
      ∀ step, Step.read fs ≠ .fits step) := by
  refine ⟨fun _ _ => Step.read_same, fun d d' v v' hd hd' h => ?_,
    fun fs fields name key s before after hname given hportable hs hblank hother =>
      Step.read_ne_fits hname given hportable hblank hs hother⟩
  have hload := Document.load_same hd hd' h
  refine ⟨hload, ?_⟩
  rw [Document.compiledText, Document.compiledText, hload]

/-- A step that renames a field by a setting. -/
def renamer (setting : Value) : Fields :=
  [("stepOrder", .int 1), ("stepName", .text "rename"), ("stepType", .text "transform"),
    ("transformExpression", setting)]

/-- An edge with this step. -/
def renamerEdge (setting : Value) : Fields :=
  [("id", .text "e1"), ("source", .text "app"), ("target", .text "api"),
    ("steps", .list [.object (renamer setting)])]

/-- A graph with this edge. -/
def drawn (setting : Value) : Value :=
  .object [("workflow", .object [("id", .text "wf-1"), ("name", .text "Sensors")]),
    ("nodes", .list [
      .object [("id", .text "app"), ("kind", .text "sender_app"), ("refId", .int 7)],
      .object [("id", .text "api"), ("kind", .text "rest"), ("refId", .int 5)]]),
    ("edges", .list [.object (renamerEdge setting)])]

def renames : Fields := [("a", .text "b")]

/-- The document of the renames with a character before it. -/
def renamesBehind (c : Char) : String :=
  String.ofList ([c] ++ (Json.writeAt .plain 0 (.object renames) ++ []))

theorem isFramed_renamesBehind (c : Char) : IsFramed [c] [] renames (renamesBehind c) :=
  ⟨.plain, Json.plain_isRegular, rfl⟩

theorem renamer_retold : (renamer (.text (renamesBehind '\n'))).SameBut settingNames RetoldSetting
    (renamer (.object renames)) := by
  have hsetting : RetoldSetting (.text (renamesBehind '\n')) (.object renames) :=
    ⟨_, _, _, _, rfl, rfl, by decide, by decide, isFramed_renamesBehind _⟩
  exact .cons ⟨rfl, .inl rfl⟩ (.cons ⟨rfl, .inl rfl⟩ (.cons ⟨rfl, .inl rfl⟩
    (.cons ⟨rfl, .inr ⟨by decide, hsetting⟩⟩ .nil)))

theorem drawn_retold :
    RetoldGraph (drawn (.text (renamesBehind '\n'))) (drawn (.object renames)) := by
  have hsteps : Value.ItemsBut RetoldStep (.list [.object (renamer (.text (renamesBehind '\n')))])
      (.list [.object (renamer (.object renames))]) :=
    ⟨_, _, rfl, rfl, .cons (.inr ⟨_, _, rfl, rfl, renamer_retold⟩) .nil⟩
  have hedge : RetoldEdge (.object (renamerEdge (.text (renamesBehind '\n'))))
      (.object (renamerEdge (.object renames))) :=
    ⟨_, _, rfl, rfl, .cons ⟨rfl, .inl rfl⟩ (.cons ⟨rfl, .inl rfl⟩ (.cons ⟨rfl, .inl rfl⟩
      (.cons ⟨rfl, .inr ⟨List.mem_singleton_self _, hsteps⟩⟩ .nil)))⟩
  exact ⟨_, _, rfl, rfl, .cons ⟨rfl, .inl rfl⟩ (.cons ⟨rfl, .inl rfl⟩
    (.cons ⟨rfl, .inr ⟨List.mem_singleton_self _, _, _, rfl, rfl, .cons (.inr hedge) .nil⟩⟩ .nil))⟩

/-- The step, and the graph with it, are the same with a line break before the text, and no more read
with a no-break space. -/
theorem renames_textual :
    (∃ s, Step.read (renamer (.text (renamesBehind '\n'))) = .fits s ∧
      Step.read (renamer (.object renames)) = .fits s) ∧
    (∃ g, AuthoringGraph.load (.value (drawn (.text (renamesBehind '\n')))) = .ok g ∧
      AuthoringGraph.load (.value (drawn (.object renames))) = .ok g) ∧
    ∀ s, Step.read (renamer (.text (renamesBehind '\u00A0'))) ≠ .fits s := by
  obtain ⟨hsteps, hgraphs, hblanks⟩ := textual_settings
  refine ⟨⟨_, (hsteps _ _ renamer_retold).trans rfl, rfl⟩, ?_, ?_⟩
  · obtain ⟨hload, -⟩ := hgraphs (.value _) (.value _) _ _ rfl rfl drawn_retold
    exact ⟨_, hload.trans rfl, rfl⟩
  · exact hblanks _ _ "transformExpression" _ _ _ _ (by decide) rfl (by decide)
      (isFramed_renamesBehind _) (List.forall_mem_singleton.mpr (by decide)) (by decide)

/-- A no-break space is a blank as any other, but no document may start with one. -/
theorem behindNoBreak_refused :
    Text.isBlank '\u00A0' = true ∧ (∃ s, Step.read (renamer (.object renames)) = .fits s) ∧
      ∀ s, Step.read (renamer (.text (renamesBehind '\u00A0'))) ≠ .fits s :=
  ⟨by decide, ⟨_, rfl⟩, @Step.read_ne_fits _ _ "transformExpression" _ _ _ _ (by decide) rfl
    (by decide) (List.forall_mem_singleton.mpr (by decide)) (isFramed_renamesBehind _) (by decide)⟩

end Conveyor
