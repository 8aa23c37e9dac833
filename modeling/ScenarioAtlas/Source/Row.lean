import ScenarioAtlas.Text.Blank

/-!
# Table rows

A row is a bar and then cells, each closed by a bar. A backslash takes the next character along, so
a bar behind it closes nothing. Cells are trimmed as written; after that `\|`, `\\` and `\n` are
read, so a line feed that was written as an escape stays at the edge of its cell.
-/

namespace ScenarioAtlas.Row

set_option autoImplicit false

/-- Reads the escapes of a cell; a backslash before any other character stays. -/
def decode : List Char → List Char
  | '\\' :: '|' :: s => '|' :: decode s
  | '\\' :: '\\' :: s => '\\' :: decode s
  | '\\' :: 'n' :: s => '\n' :: decode s
  | c :: s => c :: decode s
  | [] => []

/-- Writes a cell so that no bar, backslash or line feed of its own is left bare. -/
def encode : List Char → List Char
  | '|' :: s => '\\' :: '|' :: encode s
  | '\\' :: s => '\\' :: '\\' :: encode s
  | '\n' :: s => '\\' :: 'n' :: encode s
  | c :: s => c :: encode s
  | [] => []

/-- The cells as written, given what the open cell holds so far in reverse; nothing may follow the
bar that closes the last one. -/
def rawCells (cell : List Char) : List Char → Option (List (List Char))
  | [] => none
  | ['|'] => some [cell.reverse]
  | '|' :: s => (rawCells [] s).map (cell.reverse :: ·)
  | '\\' :: c :: s => rawCells (c :: '\\' :: cell) s
  | c :: s => rawCells (c :: cell) s

/-- The cells of a row, where the text is one. -/
def split? : List Char → Option (List (List Char))
  | '|' :: s => (rawCells [] s).map fun cells => cells.map fun cell => decode (Text.trim cell)
  | _ => none

/-- A cell as it stands in a row, between blanks. -/
structure Padded where
  before : List Char := [' ']
  text : List Char
  after : List Char := [' ']
  blank_before : Text.allBlank before = true := by decide
  blank_after : Text.allBlank after = true := by decide

/-- A cell as written, up to the bar that closes it. -/
def Padded.written (cell : Padded) : List Char := cell.before ++ encode cell.text ++ cell.after

def render (cells : List Padded) : List Char :=
  '|' :: cells.flatMap fun cell => cell.written ++ ['|']

end ScenarioAtlas.Row
