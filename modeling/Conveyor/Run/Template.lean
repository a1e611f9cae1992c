import Conveyor.Run.Scope
import Conveyor.Json.Printer
import Conveyor.Text.Blank

/-!
# Body templates

A template is a document whose texts hold placeholders. A text is taken apart once, from left to
right, into literal characters and placeholders; what is put in the place of a placeholder is not
searched again. A text that is nothing but one placeholder becomes the value itself.
-/

namespace Conveyor.Template

/-- A part of a template text. -/
inductive Piece where
  | literal (c : Char)
  | placeholder (expression : String)
  deriving DecidableEq, Repr

def isBrace (c : Char) : Bool := c = '\x7b' || c = '\x7d'

/-- The expression between the braces of a placeholder: without the blanks around it, or its last
blank if there is nothing else. -/
def expressionOf (content : List Char) : String :=
  if content.all Text.isBlank then String.ofList (content.drop (content.length - 1))
  else String.ofList (Text.trimChars content)

/-- The content of a placeholder at the start of the input, and what follows it: two opening
braces, at least one character, no brace among them, and two closing braces. -/
def placeholder? : List Char → Option (List Char × List Char)
  | '\x7b' :: '\x7b' :: rest =>
    match rest.takeWhile (fun c => !isBrace c), rest.dropWhile (fun c => !isBrace c) with
    | c :: content, '\x7d' :: '\x7d' :: after => some (c :: content, after)
    | _, _ => none
  | _ => none

theorem length_dropWhile_le (p : Char → Bool) (cs : List Char) :
    (cs.dropWhile p).length ≤ cs.length := by
  induction cs with
  | nil => simp
  | cons c rest ih =>
    simp only [List.dropWhile_cons]
    split
    · exact Nat.le_succ_of_le ih
    · exact Nat.le_refl _

/-- What follows a placeholder is shorter than the input. -/
theorem length_of_placeholder? {cs content after : List Char}
    (h : placeholder? cs = some (content, after)) : after.length < cs.length := by
  unfold placeholder? at h
  split at h
  · next rest =>
    split at h
    · next hd =>
      have hl := length_dropWhile_le (fun c => !isBrace c) rest
      rw [hd] at hl
      cases h
      simp only [List.length_cons] at hl ⊢
      omega
    · cases h
  · cases h

/-- The parts of a template text. -/
def pieces (cs : List Char) : List Piece :=
  match cs with
  | [] => []
  | c :: rest =>
    match _h : placeholder? (c :: rest) with
    | some (content, after) => .placeholder (expressionOf content) :: pieces after
    | none => .literal c :: pieces rest
termination_by cs.length
decreasing_by
  · exact length_of_placeholder? _h
  · simp

/-- The value of a placeholder: a name of the context, or a dotted path that starts with one. -/
def resolve (context : Fields) (expression : String) : Except Failure Value := do
  let (name, path) := Text.cut '.' expression
  match context.get? name with
  | none => .error (.mapping (.unboundPlaceholder expression))
  | some root =>
    match ← (Scope.below root path).mapError Failure.fault with
    | some v => pure v
    | none => .error (.mapping (.danglingPlaceholder expression))

/-- A value inside a longer text: a text as it is, anything else as a JSON document. An integer without a
text cannot be written. -/
def embedded : Value → Except Failure String
  | .text s => .ok s
  | v => if v.isShowable then .ok (Json.write .plain v) else .error (.fault .badValue)

/-- The text of a part. -/
def fillPiece (context : Fields) : Piece → Except Failure String
  | .literal c => .ok (String.ofList [c])
  | .placeholder e => resolve context e >>= embedded

/-- The one placeholder of a text that is nothing else, but for blanks around it. -/
def whole? (s : String) : Option String :=
  match placeholder? (Text.trimChars s.toList) with
  | some (content, []) => some (expressionOf content)
  | _ => none

def renderText (context : Fields) (s : String) : Except Failure Value :=
  match whole? s with
  | some e => resolve context e
  | none => do
    let texts ← (pieces s.toList).mapM (fillPiece context)
    pure (.text (String.join texts))

mutual

/-- The template with every placeholder filled. Names of fields are left as they are. -/
def render (context : Fields) : Value → Except Failure Value
  | .text s => renderText context s
  | .list items => Value.list <$> renderItems context items
  | .object fs => Value.object <$> renderFields context fs
  | v => .ok v

def renderItems (context : Fields) : List Value → Except Failure (List Value)
  | [] => .ok []
  | v :: rest => do
    let w ← render context v
    pure (w :: (← renderItems context rest))

def renderFields (context : Fields) :
    List (String × Value) → Except Failure (List (String × Value))
  | [] => .ok []
  | (k, v) :: rest => do
    let w ← render context v
    pure ((k, w) :: (← renderFields context rest))

end

end Conveyor.Template
