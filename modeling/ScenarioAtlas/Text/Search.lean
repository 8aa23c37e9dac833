/-!
# Searching and cutting texts

Where one text occurs in another, the part before the last occurrence, and replacing every
occurrence from left to right. A replaced part is not read again.
-/

namespace ScenarioAtlas.Text

set_option autoImplicit false

variable {α : Type} [BEq α]

def contains (part : List α) : List α → Bool
  | [] => part.isEmpty
  | c :: s => part.isPrefixOf (c :: s) || contains part s

/-- What follows `part` at the start of the text. -/
def afterStart? (part s : List α) : Option (List α) := part.isPrefixOf? s

def beforeEnd? (part s : List α) : Option (List α) :=
  (part.reverse.isPrefixOf? s.reverse).map List.reverse

/-- What comes before the last occurrence of `part`. -/
def beforeLast? (part : List α) : List α → Option (List α)
  | [] => if part.isEmpty then some [] else none
  | c :: s =>
    match beforeLast? part s with
    | some before => some (c :: before)
    | none => if part.isPrefixOf (c :: s) then some [] else none

def cutLast? (sep : α) : List α → Option (List α × List α)
  | [] => none
  | c :: s =>
    match cutLast? sep s with
    | some (before, after) => some (c :: before, after)
    | none => if c == sep then some ([], s) else none

def cutFirst? (sep : α) : List α → Option (List α × List α)
  | [] => none
  | c :: s =>
    if c == sep then some ([], s)
    else (cutFirst? sep s).map fun (before, after) => (c :: before, after)

/-- Replaces occurrences of `old` from left to right, after passing over `skip` characters. -/
def replaceFrom (old new : List α) : Nat → List α → List α
  | _, [] => []
  | skip + 1, _ :: s => replaceFrom old new skip s
  | 0, c :: s =>
    if old.isPrefixOf (c :: s) then new ++ replaceFrom old new (old.length - 1) s
    else c :: replaceFrom old new 0 s

/-- Replaces every occurrence of `old`, a text that is not empty, by `new`. -/
def replaceAll (old new s : List α) : List α := replaceFrom old new 0 s

/-- The texts between the separators, in order; one more than there are separators. -/
def fields (sep : α) (s : List α) : List (List α) := s.splitOnP (· == sep)

end ScenarioAtlas.Text
