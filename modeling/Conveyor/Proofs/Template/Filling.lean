import Conveyor.Proofs.Run.Reference
import Conveyor.Proofs.Template.Line

/-!
# Filling templates

A template is filled in one pass: every placeholder is replaced by what it stands for, which is not looked
into again, and all else stays as it is. Filling fails only where a placeholder stands for nothing, and the
first such placeholder tells with what (`render_fills`).
-/

namespace Conveyor

namespace Value

theorem itemsAreShowable_iff {items : List Value} :
    itemsAreShowable items = true ↔ ∀ v ∈ items, v.isShowable = true := by
  induction items with
  | nil => simp [itemsAreShowable]
  | cons v rest ih => rw [itemsAreShowable, Bool.and_eq_true, ih, List.forall_mem_cons]

theorem fieldsAreShowable_iff {fs : List (String × Value)} :
    fieldsAreShowable fs = true ↔ ∀ f ∈ fs, f.2.isShowable = true := by
  induction fs with
  | nil => simp [fieldsAreShowable]
  | cons f rest ih => rw [fieldsAreShowable, Bool.and_eq_true, ih, List.forall_mem_cons]

theorem inherited_isShowable : Inherited fun v => v.isShowable = true where
  item h := itemsAreShowable_iff.mp h
  field {v fs} hfs h := by
    cases v <;> cases hfs <;> exact fieldsAreShowable_iff.mp h

end Value

namespace Template

open Outcome

variable {α β γ : Type} {context : Fields}

/-! ## Filling in order -/

/-- The first of the expressions without a value fails with `f`. -/
def FailsFirst (context : Fields) (expressions : List String) (f : Failure) : Prop :=
  ∃ before e after, expressions = before ++ e :: after ∧
    (∀ e ∈ before, ∃ v, resolve context e = .ok v) ∧ resolve context e = .error f

/-- The computation has a result, made of the values of the expressions, if all of them have one, and else fails
with the first that has none. -/
structure Follows (context : Fields) (expressions : List String) (x : Except Failure α)
    (result : (String → Value) → α) : Prop where
  ok : ∀ value : String → Value, (∀ e ∈ expressions, resolve context e = .ok (value e)) →
    x = .ok (result value)
  error : ∀ f, FailsFirst context expressions f → x = .error f

/-- All expressions have values, or one is the first that has none. -/
theorem values_or_failsFirst (context : Fields) (expressions : List String) :
    (∃ value : String → Value, ∀ e ∈ expressions, resolve context e = .ok (value e)) ∨
      ∃ f, FailsFirst context expressions f := by
  induction expressions with
  | nil => exact .inl ⟨fun _ => .null, List.forall_mem_nil _⟩
  | cons e rest ih =>
    cases he : resolve context e with
    | error f => exact .inr ⟨f, [], e, rest, rfl, List.forall_mem_nil _, he⟩
    | ok v =>
      rcases ih with ⟨value, hvalue⟩ | ⟨f, before, e', after, rfl, hbefore, hf⟩
      · refine .inl ⟨fun d => if d = e then v else value d, ?_⟩
        intro d hd
        dsimp only
        split
        · rename_i hde
          rw [hde, he]
        · rename_i hde
          exact hvalue d ((List.mem_cons.mp hd).resolve_left hde)
      · refine .inr ⟨f, e :: before, e', after, rfl, ?_, hf⟩
        exact List.forall_mem_cons.mpr ⟨⟨v, he⟩, hbefore⟩

theorem failsFirst_append {es es' : List String} {f : Failure}
    (h : FailsFirst context (es ++ es') f) : FailsFirst context es f ∨
      (∀ e ∈ es, ∃ v, resolve context e = .ok v) ∧ FailsFirst context es' f := by
  obtain ⟨before, e, after, heq, hbefore, hf⟩ := h
  rcases List.append_eq_append_iff.mp heq with ⟨more, rfl, hes'⟩ | ⟨more, rfl, hafter⟩
  · refine .inr ⟨fun d hd => hbefore d (List.mem_append_left _ hd), more, e, after, hes', ?_, hf⟩
    exact fun d hd => hbefore d (List.mem_append_right _ hd)
  · cases more with
    | nil =>
      obtain ⟨rfl⟩ : es' = e :: after := hafter.symm
      rw [List.append_nil]
      exact .inr ⟨hbefore, [], e, after, rfl, List.forall_mem_nil _, hf⟩
    | cons d more =>
      obtain ⟨rfl, -⟩ := List.cons.inj hafter
      exact .inl ⟨before, _, more, rfl, hbefore, hf⟩

namespace Follows

variable {es es' : List String} {x : Except Failure α} {y : Except Failure β}
  {r : (String → Value) → α} {q : (String → Value) → β}

theorem pure (context : Fields) (a : α) : Follows context [] (.ok a) fun _ => a := by
  refine ⟨fun _ _ => rfl, ?_⟩
  rintro f ⟨before, e, after, h, -⟩
  simp at h

theorem resolve (context : Fields) (e : String) :
    Follows context [e] (Template.resolve context e) fun value => value e := by
  refine ⟨fun value h => h e (List.mem_singleton_self e), ?_⟩
  rintro f ⟨before, e', after, h, -, hf⟩
  cases before with
  | nil =>
    obtain ⟨rfl, -⟩ := List.cons.inj h
    exact hf
  | cons d before =>
    obtain ⟨-, hnil⟩ := List.cons.inj h
    simp at hnil

theorem map (h : Follows context es x r) (g : α → β) :
    Follows context es (g <$> x) fun value => g (r value) := by
  refine ⟨fun value hvalue => ?_, fun f hf => ?_⟩
  · rw [h.ok value hvalue]
    rfl
  · rw [h.error f hf]
    rfl

/-- Of two computations in a row, the second counts if the first has a result. -/
theorem seq (hx : Follows context es x r) (hy : Follows context es' y q) (g : α → β → γ) :
    Follows context (es ++ es') (x >>= fun a => y >>= fun b => .ok (g a b))
      fun value => g (r value) (q value) := by
  refine ⟨fun value hvalue => ?_, fun f hf => ?_⟩
  · rw [hx.ok value fun e he => hvalue e (List.mem_append_left _ he),
      hy.ok value fun e he => hvalue e (List.mem_append_right _ he)]
    rfl
  · rcases failsFirst_append hf with hfirst | ⟨hes, hsecond⟩
    · rw [hx.error f hfirst]
      rfl
    · rcases values_or_failsFirst context es with ⟨value, hvalue⟩ | ⟨f', _, e, _, rfl, -, hf'⟩
      · rw [hx.ok value hvalue, hy.error f hsecond]
        rfl
      · obtain ⟨v, hv⟩ := hes e (by simp)
        rw [hf'] at hv
        cases hv

/-- It fails with nothing else. -/
theorem error_iff (h : Follows context es x r) {f : Failure} :
    x = .error f ↔ FailsFirst context es f := by
  refine ⟨fun hx => ?_, h.error f⟩
  rcases values_or_failsFirst context es with ⟨value, hvalue⟩ | ⟨f', hf'⟩
  · rw [h.ok value hvalue] at hx
    cases hx
  · rw [h.error f' hf'] at hx
    cases hx
    exact hf'

end Follows

/-! ## Texts -/

/-- A value as it stands inside a longer text: a text is itself, anything else a JSON document. -/
def spelled : Value → String
  | .text s => s
  | v => Json.write .plain v

theorem embedded_of_isShowable {v : Value} (h : v.isShowable = true) : embedded v = .ok (spelled v) := by
  unfold embedded
  split
  · rfl
  · rename_i hother
    rw [if_pos h, spelled]
    exact hother

/-- The expression of a part, if it is a placeholder. -/
def Piece.expressions : Piece → List String
  | .literal _ => []
  | .placeholder e => [e]

def Piece.spelled (value : String → Value) : Piece → String
  | .literal c => String.ofList [c]
  | .placeholder e => Template.spelled (value e)

/-- What the expression stands for, if it stands for anything, has a text. -/
def HasText (context : Fields) (e : String) : Prop :=
  ∀ v, resolve context e = .ok v → v.isShowable = true

theorem follows_fillPiece (p : Piece) (texts : ∀ e ∈ p.expressions, HasText context e) :
    Follows context p.expressions (fillPiece context p) fun value => p.spelled value := by
  cases p with
  | literal c => exact .pure context _
  | placeholder e =>
    refine ⟨fun value hvalue => ?_, fun f hf => ?_⟩
    · have he : resolve context e = .ok (value e) := hvalue e (List.mem_singleton_self e)
      rw [fillPiece, he]
      exact embedded_of_isShowable (texts e (List.mem_singleton_self e) _ he)
    · rw [fillPiece, (Follows.resolve context e).error f hf]
      rfl

theorem follows_pieces (ps : List Piece)
    (texts : ∀ e ∈ ps.flatMap Piece.expressions, HasText context e) :
    Follows context (ps.flatMap Piece.expressions) (ps.mapM (fillPiece context))
      fun value => ps.map (Piece.spelled value) := by
  induction ps with
  | nil => exact .pure context []
  | cons p ps ih =>
    rw [List.flatMap_cons, List.forall_mem_append] at texts
    rw [List.mapM_cons, List.flatMap_cons]
    exact (follows_fillPiece p texts.1).seq (ih texts.2) List.cons

namespace Line

variable {l : Line}

/-- The text with every placeholder replaced by the text of its value. -/
def spelledOut (value : String → Value) (l : Line) : String :=
  String.ofList (l.head ++ l.rest.flatMap fun p => (spelled (value p.1.expression)).toList ++ p.2)

/-- What becomes of a template text: the value of its one placeholder if it is nothing else, or else a text. -/
def filled (value : String → Value) (l : Line) : Value :=
  match l.only? with
  | some slot => value slot.expression
  | none => .text (l.spelledOut value)

/-- The expressions of the placeholders that stand in a longer text. -/
def enclosed (l : Line) : List String := if l.only? = none then l.expressions else []

theorem expressions_literals (cs : List Char) : (cs.map Piece.literal).flatMap Piece.expressions = [] := by
  rw [List.flatMap_map]
  exact List.flatMap_eq_nil_iff.mpr fun _ _ => rfl

theorem expressions_pieces (l : Line) : l.pieces.flatMap Piece.expressions = l.expressions := by
  obtain ⟨head, rest⟩ := l
  rw [pieces, expressions, List.flatMap_append, expressions_literals, List.nil_append, List.flatMap_assoc]
  induction rest with
  | nil => rfl
  | cons p rest ih =>
    rw [List.flatMap_cons, List.flatMap_cons, expressions_literals, ih]
    rfl

theorem spelled_literals (value : String → Value) (cs : List Char) :
    (cs.map Piece.literal).flatMap (fun p => (p.spelled value).toList) = cs := by
  induction cs with
  | nil => rfl
  | cons c cs ih =>
    rw [List.map_cons, List.flatMap_cons, ih, Piece.spelled, String.toList_ofList, List.singleton_append]

theorem join_pieces (value : String → Value) (l : Line) :
    String.join (l.pieces.map (Piece.spelled value)) = l.spelledOut value := by
  obtain ⟨head, rest⟩ := l
  refine String.toList_injective ?_
  rw [String.toList_join, List.flatMap_map, spelledOut, String.toList_ofList, pieces, List.flatMap_append,
    spelled_literals, List.flatMap_assoc]
  refine congrArg _ (List.flatMap_congr fun p _ => ?_)
  rw [List.flatMap_cons, spelled_literals, Piece.spelled]

theorem follows_renderText (texts : ∀ e ∈ l.enclosed, HasText context e) (proper : l.IsProper) :
    Follows context l.expressions (renderText context l.text) fun value => l.filled value := by
  unfold renderText filled
  rw [l.whole?_text proper]
  cases honly : l.only? with
  | some slot =>
    obtain ⟨tail, hrest, -⟩ := only?_eq_some_iff.mp honly
    have hexpressions : l.expressions = [slot.expression] := by rw [expressions, hrest]; rfl
    rw [hexpressions]
    exact .resolve context slot.expression
  | none =>
    rw [enclosed, if_pos honly, ← expressions_pieces] at texts
    have hpieces := (follows_pieces l.pieces texts).map fun ts => Value.text (String.join ts)
    simp only [join_pieces, expressions_pieces] at hpieces
    rw [text, String.toList_ofList, pieces_chars proper]
    exact hpieces

end Line

/-! ## Templates -/

/-- A value with nothing to fill in: it is no text and has no parts that could be one. -/
def isFixed : Value → Bool
  | .text _ | .list _ | .object _ => false
  | _ => true

theorem render_of_isFixed {v : Value} (h : isFixed v = true) : render context v = .ok v := by
  cases v with
  | text | list | object => cases h
  | _ => rfl

/-- A template, with its texts as they are taken apart. -/
inductive Draft where
  | line (l : Line) (proper : l.IsProper)
  | list (items : List Draft)
  | object (fields : List (String × Draft))
  | fixed (v : Value) (plain : isFixed v = true)

namespace Draft

mutual

/-- The value with the shape of the template, and with what `fill` makes of its texts. -/
def build (fill : Line → Value) : Draft → Value
  | .line l _ => fill l
  | .list items => .list (buildItems fill items)
  | .object fs => .object (buildFields fill fs)
  | .fixed v _ => v

def buildItems (fill : Line → Value) : List Draft → List Value
  | [] => []
  | d :: rest => d.build fill :: buildItems fill rest

def buildFields (fill : Line → Value) : List (String × Draft) → List (String × Value)
  | [] => []
  | (k, d) :: rest => (k, d.build fill) :: buildFields fill rest

end

def template (d : Draft) : Value := d.build fun l => .text l.text

/-- The template with every text filled, in the shape that it has. -/
def filled (value : String → Value) (d : Draft) : Value := d.build (Line.filled value)

mutual

/-- What `of` tells of the texts, in the order in which they are filled. -/
def gather (of : Line → List String) : Draft → List String
  | .line l _ => of l
  | .list items => gatherItems of items
  | .object fs => gatherFields of fs
  | .fixed _ _ => []

def gatherItems (of : Line → List String) : List Draft → List String
  | [] => []
  | d :: rest => d.gather of ++ gatherItems of rest

def gatherFields (of : Line → List String) : List (String × Draft) → List String
  | [] => []
  | (_, d) :: rest => d.gather of ++ gatherFields of rest

end

/-- The expressions of the placeholders, in the order in which they are filled. -/
def expressions (d : Draft) : List String := d.gather Line.expressions

/-- The expressions of the placeholders that stand in longer texts. -/
def enclosed (d : Draft) : List String := d.gather Line.enclosed

mutual

theorem follows_render : ∀ d : Draft, (∀ e ∈ d.enclosed, HasText context e) →
    Follows context d.expressions (render context d.template) fun value => d.filled value
  | .line _ proper, texts => Line.follows_renderText texts proper
  | .list items, texts => (follows_renderItems items texts).map Value.list
  | .object fs, texts => (follows_renderFields fs texts).map Value.object
  | .fixed v plain, _ => by
    rw [template, build, render_of_isFixed plain]
    exact .pure context v

theorem follows_renderItems : ∀ items : List Draft,
    (∀ e ∈ gatherItems Line.enclosed items, HasText context e) →
    Follows context (gatherItems Line.expressions items)
      (renderItems context (buildItems (fun l => .text l.text) items))
      fun value => buildItems (Line.filled value) items
  | [], _ => .pure context []
  | d :: rest, texts => by
    obtain ⟨hd, hrest⟩ := List.forall_mem_append.mp texts
    exact (follows_render d hd).seq (follows_renderItems rest hrest) List.cons

theorem follows_renderFields : ∀ fs : List (String × Draft),
    (∀ e ∈ gatherFields Line.enclosed fs, HasText context e) →
    Follows context (gatherFields Line.expressions fs)
      (renderFields context (buildFields (fun l => .text l.text) fs))
      fun value => buildFields (Line.filled value) fs
  | [], _ => .pure context []
  | (k, d) :: rest, texts => by
    obtain ⟨hd, hrest⟩ := List.forall_mem_append.mp texts
    exact (follows_render d hd).seq (follows_renderFields rest hrest) fun w ws => (k, w) :: ws

end

end Draft

/-- A template is filled in one pass: each text with what its placeholders stand for, as it is found in the
context, whatever is in it; and filling fails exactly with the first placeholder that stands for nothing. What
is put into a longer text must have a text of its own, which an integer of more than 4300 digits has not. -/
theorem render_fills (d : Draft) (texts : ∀ e ∈ d.enclosed, HasText context e) :
    (∀ value : String → Value, (∀ e ∈ d.expressions, resolve context e = .ok (value e)) →
      render context d.template = .ok (d.filled value)) ∧
    ∀ f, render context d.template = .error f ↔ FailsFirst context d.expressions f :=
  have follows := d.follows_render texts
  ⟨follows.ok, fun _ => follows.error_iff⟩

/-- A context with a text that looks like a placeholder. -/
def baiting : Fields := [("a", .text "\x7b\x7bb\x7d\x7d"), ("b", .list [.int 1, .text "a"])]

/-- The placeholders of `baiting`, one with a blank. -/
def slotA : Slot := { before := [' '], name := ['a'] }

def slotB : Slot := { name := ['b'] }

theorem slotA_isProper : slotA.IsProper :=
  ⟨List.forall_mem_singleton.mpr rfl, List.forall_mem_nil _, List.cons_ne_nil _ _,
    List.forall_mem_singleton.mpr rfl, Text.isBare_of_blankless (List.forall_mem_singleton.mpr rfl)⟩

theorem slotB_isProper : slotB.IsProper :=
  ⟨List.forall_mem_nil _, List.forall_mem_nil _, List.cons_ne_nil _ _,
    List.forall_mem_singleton.mpr rfl, Text.isBare_of_blankless (List.forall_mem_singleton.mpr rfl)⟩

/-- A text with stray braces around its placeholders, and one that is a placeholder. -/
def bait : Draft :=
  .object [
    ("t", .line ⟨"\x7b\x7b \x7b".toList, [(slotA, ['\x7d']), (slotB, ['\x7d', '\x7d'])]⟩
      ⟨by decide, by simp [slotA_isProper, slotB_isProper], by decide⟩),
    ("v", .list [
      .line ⟨[' '], [(slotB, [])]⟩ ⟨by decide, by simp [slotB_isProper], by decide⟩,
      .fixed (.int 3) rfl])]

theorem bait_filled : (∀ e ∈ bait.enclosed, HasText baiting e) ∧
    render baiting (.object [
      ("t", .text "\x7b\x7b \x7b\x7b\x7b a\x7d\x7d\x7d\x7b\x7bb\x7d\x7d\x7d\x7d"),
      ("v", .list [.text " \x7b\x7bb\x7d\x7d", .int 3])]) =
    .ok (.object [
      ("t", .text "\x7b\x7b \x7b\x7b\x7bb\x7d\x7d\x7d[1, \"a\"]\x7d\x7d"),
      ("v", .list [.list [.int 1, .text "a"], .int 3])]) := by
  have found : ∀ e ∈ bait.expressions, resolve baiting e = .ok ((baiting.get? e).getD .null) := by
    rw [show bait.expressions = ["a", "b", "b"] from rfl]
    simp only [List.forall_mem_cons, List.not_mem_nil, false_imp_iff, implies_true, and_true]
    exact ⟨rfl, rfl, rfl⟩
  have texts : ∀ e ∈ bait.enclosed, HasText baiting e := by
    rw [show bait.enclosed = ["a", "b"] from rfl]
    simp only [List.forall_mem_cons, List.not_mem_nil, false_imp_iff, implies_true, and_true]
    constructor <;>
    · intro v hv
      cases hv
      decide +kernel
  exact ⟨texts, (render_fills bait texts).1 _ found⟩

end Template

end Conveyor
