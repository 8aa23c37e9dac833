import ScenarioAtlas.Text.Blank

/-!
# Outcomes

The outcome that a run reports for a scenario, and the status of a node of the test tree. What was
not run, or cannot be told apart, is skipped and never failed.
-/

namespace ScenarioAtlas

set_option autoImplicit false

/-- What a run reports for one scenario. -/
inductive Outcome where
  | passed
  | failed
  deriving DecidableEq, Repr

structure UnknownOutcome where
  text : String
  deriving DecidableEq, Repr

def UnknownOutcome.message (error : UnknownOutcome) : String :=
  "unknown status: '" ++ error.text ++ "'"

namespace Outcome

def text : Outcome → String
  | passed => "passed"
  | failed => "failed"

/-- Reads an outcome, in any case of its ASCII letters and with blanks around it. -/
def read (text : String) : Except UnknownOutcome Outcome :=
  let word := String.ofList ((Text.trim text.toList).map Char.toLower)
  if word = "passed" then .ok passed
  else if word = "failed" then .ok failed
  else .error ⟨text⟩

end Outcome

/-- The status of a node of the test tree. -/
inductive Status where
  | passed
  | failed
  | skipped
  deriving DecidableEq, Repr

namespace Status

def text : Status → String
  | passed => "passed"
  | failed => "failed"
  | skipped => "skipped"

/-- The status of a scenario with the given outcome, or with none. -/
def ofOutcome? : Option Outcome → Status
  | some .passed => passed
  | some .failed => failed
  | none => skipped

/-- The status of a node above others: failed if one of them failed, passed if there are some and
all passed. -/
def rollUp (statuses : List Status) : Status :=
  if failed ∈ statuses then failed
  else if statuses ≠ [] ∧ skipped ∉ statuses then passed
  else skipped

theorem rollUp_eq_failed_iff {statuses : List Status} :
    rollUp statuses = failed ↔ failed ∈ statuses := by
  unfold rollUp
  split <;> simp_all
  split <;> simp

end Status

end ScenarioAtlas
