/-!
# Blanks

The characters that surround text without belonging to it, and trimming them away. The class is
every separator, tab and line break of any script, together with the four information separators.
-/

namespace Conveyor.Text

/-- The information separators `U+001C` to `U+001F`: blanks in text, but not spacing in
documents. -/
def isInformationSeparator (c : Char) : Bool := 28 ≤ c.toNat && c.toNat ≤ 31

/-- A character with the white-space property. -/
def isSpacing (c : Char) : Bool :=
  let n := c.toNat
  (9 ≤ n && n ≤ 13) || n == 32 || n == 0x85 || n == 0xA0 || n == 0x1680
    || (0x2000 ≤ n && n ≤ 0x200A) || n == 0x2028 || n == 0x2029 || n == 0x202F || n == 0x205F
    || n == 0x3000

/-- A character that trimming removes from the ends of a text. -/
def isBlank (c : Char) : Bool := isSpacing c || isInformationSeparator c

/-- A list without its longest tail of elements satisfying `p`. -/
def dropEndWhile (p : Char → Bool) (cs : List Char) : List Char :=
  (cs.reverse.dropWhile p).reverse

/-- A list of characters without the elements satisfying `p` at either end. -/
def trimBy (p : Char → Bool) (cs : List Char) : List Char := dropEndWhile p (cs.dropWhile p)

def trimChars (cs : List Char) : List Char := trimBy isBlank cs

/-- The text without the blanks at its ends. -/
def trim (s : String) : String := String.ofList (trimChars s.toList)

/-- No character but blanks. -/
def isBlankText (s : String) : Bool := s.toList.all isBlank

end Conveyor.Text
