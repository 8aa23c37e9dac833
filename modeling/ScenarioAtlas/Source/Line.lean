import ScenarioAtlas.Text.Blank
import ScenarioAtlas.Text.Search

/-!
# Source lines

The numbered lines of a text. A line ends at a carriage return with a line feed, at either alone, or
at the end of the text; one byte order mark at the start of the text belongs to no line.
-/

namespace ScenarioAtlas

set_option autoImplicit false

/-- One line of a text, numbered from one. -/
structure Line where
  number : Nat
  raw : List Char
  deriving DecidableEq, Repr

namespace Line

def trimmed (line : Line) : List Char := Text.trim line.raw

def dropByteOrderMark : List Char → List Char
  | '\ufeff' :: text => text
  | text => text

/-- Every line ending written as one line feed: those of two characters first, then the carriage
returns that are left. -/
def unifyBreaks (text : List Char) : List Char :=
  Text.replaceAll ['\r'] ['\n'] (Text.replaceAll ['\r', '\n'] ['\n'] text)

/-- The lines of a text as written, without their endings; there is always one. -/
def rawLines (text : List Char) : List (List Char) :=
  (unifyBreaks (dropByteOrderMark text)).splitOnP (· == '\n')

/-- Numbers a list of lines from `first` on. -/
def numberFrom (first : Nat) : List (List Char) → List Line
  | [] => []
  | raw :: rest => ⟨first, raw⟩ :: numberFrom (first + 1) rest

def scan (text : String) : List Line := numberFrom 1 (rawLines text.toList)

theorem length_numberFrom (first : Nat) (raws : List (List Char)) :
    (numberFrom first raws).length = raws.length := by
  induction raws generalizing first with
  | nil => rfl
  | cons raw rest ih => simp [numberFrom, ih]

end Line

end ScenarioAtlas
