import ScenarioAtlas.Text.Blank
import ScenarioAtlas.Text.Digit
import ScenarioAtlas.Text.Search

/-!
# The shape of example names

Telling whether a name has the shape of an example's name, and reading the outline's name back from
it. Any name can be asked: the reading never answers with an empty text unless it was given one.
-/

namespace ScenarioAtlas.ExampleName

set_option autoImplicit false

def afterIndex? (name : List Char) : Option (List Char) :=
  match name.takeWhile Text.isDecimalDigit, name.dropWhile Text.isDecimalDigit with
  | _ :: _, ':' :: rest => some rest
  | _, _ => none

/-- Whether a text can stand between the colon and the dash: around a part of one or more characters
and no line feed there are only blanks. -/
def isTitle (s : List Char) : Bool := s.any (· != '\n') && !(Text.trim s).contains '\n'

/-- Whether some dash has a title before it, of which `before` is the start in reverse. -/
def titleBeforeDash (before : List Char) : List Char → Bool
  | [] => false
  | c :: s => (c == '-' && isTitle before.reverse) || titleBeforeDash (c :: before) s

/-- Whether a name is a number, a colon, a title and a dash, with anything behind. -/
def hasShape (name : String) : Bool :=
  match afterIndex? name.toList with
  | some rest => titleBeforeDash [] rest
  | none => false

/-- A name without the number, the colon and the one space that may open it. -/
def dropIndex (name : List Char) : List Char :=
  match afterIndex? name with
  | some (' ' :: rest) => rest
  | some rest => rest
  | none => name

/-- The outline's name in an example's name: what stands before the last dash between two spaces. A
name with nothing there is its own answer. -/
def outlineName (name : String) : String :=
  let titled := dropIndex name.toList
  let title := Text.trim ((Text.beforeLast? [' ', '-', ' '] titled).getD titled)
  if title.isEmpty then name else String.ofList title

end ScenarioAtlas.ExampleName
