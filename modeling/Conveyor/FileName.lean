import Conveyor.Text.Search

/-!
# File names

The one spelling of the names that lead to a file in the same way: no empty parts and no parts that
are a single dot. A slash at the start is kept, and so are exactly two.
-/

namespace Conveyor.FileName

/-- What a name starts with, which parts alone do not show. -/
def rootOf : List Char → String
  | '/' :: '/' :: '/' :: _ => "/"
  | '/' :: '/' :: _ => "//"
  | '/' :: _ => "/"
  | _ => ""

/-- The parts that lead somewhere. -/
def parts (name : String) : List String :=
  (Text.split '/' name).filter fun p => !p.isEmpty && p ≠ "."

def ofParts (root : String) : List String → String
  | [] => if root.isEmpty then "." else root
  | ps => root ++ Text.joinWith "/" ps

def normal (name : String) : String := ofParts (rootOf name.toList) (parts name)

/-- The directory that a file of this name is in. -/
def directory (name : String) : String := ofParts (rootOf name.toList) (parts name).dropLast

/-- Whether a file's name leads through a directory. -/
def isBelow (directory name : String) : Bool :=
  directory = "." || Text.startsWith (directory ++ "/") (normal name)

end Conveyor.FileName
