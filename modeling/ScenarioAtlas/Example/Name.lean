import ScenarioAtlas.Text.Digit

/-!
# Names of examples

An example is named after its number, its outline and its parameters: `2: Add - a: 5, result: 10`. A
name that is longer than the limit has parameter names cut short, from the last one down to the
second, until it fits. The first parameter name and all values are never touched.
-/

namespace ScenarioAtlas

set_option autoImplicit false

/-- How examples are named: the length to fit into, the characters that a cut parameter name keeps,
and what is written after them. -/
structure Naming where
  maxLength : Nat := 100
  keptWidth : Nat := 5
  ellipsis : String := "..."
  deriving DecidableEq, Repr

namespace Naming

/-- A parameter name cut to the kept width, if it is longer than that. -/
def shorten (naming : Naming) (parameter : String) : String :=
  if parameter.length ≤ naming.keptWidth then parameter
  else String.ofList (parameter.toList.take naming.keptWidth) ++ naming.ellipsis

/-- The list of parameters with their values, as written in a name. -/
def parameterList (names values : List String) : String :=
  ", ".intercalate (List.zipWith (fun name value => name ++ ": " ++ value) names values)

def compose (index : Nat) (outline : String) (names values : List String) : String :=
  String.ofList (Text.writeNumber index) ++ ": " ++ outline ++ " - " ++ parameterList names values

/-- The parameter names with those from position `k` on cut short. -/
def shortenFrom (naming : Naming) (k : Nat) (headers : List String) : List String :=
  headers.take k ++ (headers.drop k).map naming.shorten

variable (naming : Naming) (index : Nat) (outline : String) (headers values : List String)

/-- The name in which the parameter names from position `k` on are cut short. -/
def nameFrom (k : Nat) : String := compose index outline (naming.shortenFrom k headers) values

/-- The name that fits with the fewest parameter names cut, all of them at position `k` or later. -/
def fitBelow : Nat → String
  | 0 => naming.nameFrom index outline headers values 0
  | 1 => naming.nameFrom index outline headers values 1
  | k + 2 =>
    let name := naming.nameFrom index outline headers values (k + 2)
    if name.length ≤ naming.maxLength then name else fitBelow (k + 1)

/-- The name of the example in row `index`, counted from one. -/
def exampleName : String := fitBelow naming index outline headers values headers.length

end Naming

end ScenarioAtlas
