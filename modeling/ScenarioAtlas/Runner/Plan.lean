import ScenarioAtlas.Runner.Invocation

/-!
# Plans for running files side by side

A plan is a list of batches: the files of a batch run at the same time, and one batch after the
other.
-/

namespace ScenarioAtlas.Plan

set_option autoImplicit false

/-- Cuts a list into batches of `width` elements, or of one if that is none; the last batch may hold
fewer. -/
def batches {α : Type} (width : Nat) : List α → List (List α)
  | [] => []
  | a :: rest => (a :: rest.take (width - 1)) :: batches width (rest.drop (width - 1))
termination_by elements => elements.length
decreasing_by
  simp only [List.length_drop, List.length_cons]
  omega

/-- The batches of invocations that run every file once, from the folder `root`. -/
def ofFiles (settings : RunnerSettings) (root : String) (files : List String) :
    List (List Invocation) :=
  batches settings.maxParallel (files.map (Invocation.ofFile settings root))

end ScenarioAtlas.Plan
