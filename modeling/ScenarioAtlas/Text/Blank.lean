/-!
# Blank characters

The characters with the White_Space property, cutting them from the ends of a text, and spaces to
fill a column. Control characters such as U+001F, the zero width space and the byte order mark are
not blank.
-/

namespace ScenarioAtlas.Text

set_option autoImplicit false

def isBlank (c : Char) : Bool :=
  let n := c.toNat
  (0x09 ≤ n && n ≤ 0x0d) || n == 0x20 || n == 0x85 || n == 0xa0 || n == 0x1680 ||
    (0x2000 ≤ n && n ≤ 0x200a) || n == 0x2028 || n == 0x2029 || n == 0x202f || n == 0x205f ||
    n == 0x3000

def trimEnd (s : List Char) : List Char := (s.reverse.dropWhile isBlank).reverse

def trim (s : List Char) : List Char := trimEnd (s.dropWhile isBlank)

def allBlank (s : List Char) : Bool := s.all isBlank

def spaces (n : Nat) : String := String.ofList (List.replicate n ' ')

/-- A text with spaces behind it up to a number of characters; a longer text stays as it is. -/
def padTo (width : Nat) (text : String) : String := text ++ spaces (width - text.toList.length)

end ScenarioAtlas.Text
