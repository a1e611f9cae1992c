/-!
# Splitting and searching text

Cutting a text at a separator, looking for a piece of text in another, and replacing every
occurrence of a piece from left to right.
-/

namespace Conveyor.Text

/-- The characters before the first `sep` and those after it; the second is absent without one. -/
def cutChars (sep : Char) : List Char → List Char × Option (List Char)
  | [] => ([], none)
  | c :: rest =>
    if c = sep then ([], some rest)
    else let (before, after) := cutChars sep rest; (c :: before, after)

/-- The text before the first `sep` and the text after it, empty if there is no `sep`. -/
def cut (sep : Char) (s : String) : String × String :=
  let (before, after) := cutChars sep s.toList
  (String.ofList before, String.ofList (after.getD []))

/-- All pieces between separators: `n` separators give `n + 1` pieces. -/
def splitChars (sep : Char) : List Char → List (List Char)
  | [] => [[]]
  | c :: rest =>
    if c = sep then [] :: splitChars sep rest
    else match splitChars sep rest with
      | [] => [[c]]
      | piece :: more => (c :: piece) :: more

/-- The pieces with a separator between them. -/
def joinChars (sep : Char) : List (List Char) → List Char
  | [] => []
  | [piece] => piece
  | piece :: rest => piece ++ sep :: joinChars sep rest

def split (sep : Char) (s : String) : List String :=
  (splitChars sep s.toList).map String.ofList

/-- What follows `pre` in a list that starts with it. -/
def after? : List Char → List Char → Option (List Char)
  | [], cs => some cs
  | _ :: _, [] => none
  | p :: ps, c :: cs => if p = c then after? ps cs else none

/-- Whether `piece` occurs in the list. -/
def occursIn (piece : List Char) : List Char → Bool
  | [] => piece.isEmpty
  | c :: cs => (after? piece (c :: cs)).isSome || occursIn piece cs

def isPieceOf (piece s : String) : Bool := occursIn piece.toList s.toList

/-- Replace every occurrence of the nonempty `piece`, left to right and without overlap;
`skip` characters still belong to the occurrence replaced last. -/
def replaceFrom (piece image : List Char) (skip : Nat) : List Char → List Char
  | [] => []
  | c :: cs =>
    match skip with
    | n + 1 => replaceFrom piece image n cs
    | 0 =>
      if (after? piece (c :: cs)).isSome then image ++ replaceFrom piece image (piece.length - 1) cs
      else c :: replaceFrom piece image 0 cs

def replace (piece image s : String) : String :=
  String.ofList (replaceFrom piece.toList image.toList 0 s.toList)

def startsWith (pre s : String) : Bool := (after? pre.toList s.toList).isSome

/-- The texts with `sep` between neighbours. -/
def joinWith (sep : String) : List String → String
  | [] => ""
  | [s] => s
  | s :: rest => s ++ sep ++ joinWith sep rest

end Conveyor.Text
