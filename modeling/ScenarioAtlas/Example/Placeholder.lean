import ScenarioAtlas.Text.Search

/-!
# Placeholders in steps

A step of an outline names a column of the examples table between angle brackets. The columns are
replaced one after the other, from the first header to the last.
-/

namespace ScenarioAtlas.Placeholder

set_option autoImplicit false

def mark (header : String) : List Char := '<' :: header.toList ++ ['>']

def fill (step : List Char) (header value : String) : List Char :=
  Text.replaceAll (mark header) value.toList step

/-- A step with the placeholders of all columns replaced, column after column. -/
def substitute (step : String) (headers values : List String) : String :=
  String.ofList ((headers.zip values).foldl (fun s (header, value) => fill s header value)
    step.toList)

end ScenarioAtlas.Placeholder
