/-!
# Glob patterns

The parts that a pattern for paths is made of, and what can be wrong with the text of one.
-/

namespace ScenarioAtlas

set_option autoImplicit false

/-- A part of a pattern. -/
inductive GlobToken where
  | literal (c : Char)
  /-- One byte inside a segment. -/
  | one
  /-- Any bytes inside a segment. -/
  | run
  /-- Any folders at the start of a path, or none. -/
  | leadingFolders
  /-- Any folders between two parts, or none. -/
  | innerFolders
  /-- Everything inside of a folder. -/
  | everythingBelow
  /-- One byte that is in one of the ranges, or in none of them. -/
  | oneOf (negated : Bool) (ranges : List (Char × Char))
  | choice (branches : List (List GlobToken))

inductive GlobFault where
  | unclosedSet
  | invalidRange (first last : Char)
  | unopenedChoice
  | unclosedChoice
  | danglingEscape
  deriving DecidableEq, Repr

def GlobFault.message : GlobFault → String
  | unclosedSet => "unclosed character class; missing ']'"
  | invalidRange first last =>
    "invalid range; '" ++ first.toString ++ "' > '" ++ last.toString ++ "'"
  | unopenedChoice =>
    "unopened alternate group; missing '\x7b' (maybe escape '\x7d' with '[\x7d]'?)"
  | unclosedChoice =>
    "unclosed alternate group; missing '\x7d' (maybe escape '\x7b' with '[\x7b]'?)"
  | danglingEscape => "dangling '\\'"

structure GlobError where
  pattern : String
  fault : GlobFault
  deriving DecidableEq, Repr

def GlobError.message (error : GlobError) : String :=
  "invalid glob pattern '" ++ error.pattern ++ "': error parsing glob '" ++ error.pattern ++ "': "
    ++ error.fault.message

end ScenarioAtlas
