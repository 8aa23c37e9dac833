import ScenarioAtlas.Proofs.Workspace.Session
import ScenarioAtlas.Runner.Plan

/-!
# What a plan runs

Files are cut into full batches and a last one for those that are left, so a plan runs each of them
once. Only a refresh changes the features of a workspace, so its plan stays that of the last refresh
whatever else happens. Nothing is claimed of what the runner makes of an invocation.
-/

namespace ScenarioAtlas

set_option autoImplicit false

namespace Plan

/-- A list cut into batches: they are all full, except that the last one may hold fewer elements. -/
structure AreBatches {α : Type} (width : Nat) (elements : List α) (batches : List (List α)) :
    Prop where
  flatten : batches.flatten = elements
  ne_nil : ∀ batch ∈ batches, batch ≠ []
  length_le : ∀ batch ∈ batches, batch.length ≤ max 1 width
  full : ∀ batch ∈ batches.dropLast, batch.length = max 1 width

section Batches

variable {α : Type} {width : Nat}

theorem areBatches_nil : AreBatches width ([] : List α) [] := ⟨rfl, nofun, nofun, nofun⟩

theorem AreBatches.cons {batch elements : List α} {batches : List (List α)}
    (h : AreBatches width elements batches) (hsome : batch ≠ [])
    (hlength : batch.length ≤ max 1 width)
    (hfull : elements ≠ [] → batch.length = max 1 width) :
    AreBatches width (batch ++ elements) (batch :: batches) where
  flatten := by rw [List.flatten_cons, h.flatten]
  ne_nil := List.forall_mem_cons.mpr ⟨hsome, h.ne_nil⟩
  length_le := List.forall_mem_cons.mpr ⟨hlength, h.length_le⟩
  full := by
    cases batches with
    | nil => nofun
    | cons next more =>
      have hleft : elements ≠ [] := by
        rw [← h.flatten, List.flatten_cons]
        exact List.append_ne_nil_of_left_ne_nil (h.ne_nil next List.mem_cons_self) _
      rw [List.dropLast_cons_of_ne_nil (List.cons_ne_nil next more)]
      exact List.forall_mem_cons.mpr ⟨hfull hleft, h.full⟩

theorem areBatches_batches (width : Nat) (elements : List α) :
    AreBatches width elements (batches width elements) := by
  induction elements using batches.induct width with
  | case1 =>
    rw [batches]
    exact areBatches_nil
  | case2 a rest ih =>
    have hcut : a :: rest = (a :: rest.take (width - 1)) ++ rest.drop (width - 1) := by simp
    have hlength : (a :: rest.take (width - 1)).length = min (width - 1) rest.length + 1 := by simp
    rw [batches]
    nth_rewrite 1 [hcut]
    apply ih.cons (List.cons_ne_nil _ _)
    · omega
    · intro hleft
      have hmore := List.drop_eq_nil_iff.not.mp hleft
      omega

end Batches

end Plan

def WorkspaceEvent.isRefresh : WorkspaceEvent → Bool
  | .refresh _ => true
  | _ => false

namespace Session

variable (source : Files → FileSource) (session : Session)

theorem step_features {event : WorkspaceEvent} (h : event.isRefresh = false) :
    (session.step source event).workspace.features = session.workspace.features := by
  cases event with
  | refresh force => cases h
  | _ => rfl

theorem run_features {events : List WorkspaceEvent}
    (h : ∀ event ∈ events, event.isRefresh = false) :
    (session.run source events).workspace.features = session.workspace.features := by
  induction events generalizing session with
  | nil => rfl
  | cons event rest ih =>
    have hrest : ∀ other ∈ rest, other.isRefresh = false :=
      fun other hother => h other (List.mem_cons_of_mem event hother)
    calc (session.run source (event :: rest)).workspace.features
        = (session.step source event).workspace.features := ih _ hrest
      _ = session.workspace.features := session.step_features source (h event List.mem_cons_self)

/-- Without a refresh the plan stays as it is. -/
theorem run_plan {events : List WorkspaceEvent} (h : ∀ event ∈ events, event.isRefresh = false) :
    (session.run source events).workspace.plan = session.workspace.plan := by
  rw [Workspace.plan, Workspace.plan, session.run_features source h, run_settings]

end Session

/-- A plan holds one invocation for each file, in the order of the files. A batch that is not the
last has as many as may run side by side, or one if that is none; the last has no more, and at least
one. The plan of a workspace is for the features of its last refresh, whatever came after it. -/
theorem Plan.runs_every_file_once :
    (∀ (settings : RunnerSettings) (root : String) (files : List String),
      AreBatches settings.maxParallel
        (files.map fun file =>
          { program := settings.program
            arguments :=
              Invocation.pathFrom root file :: Invocation.commonArguments settings
            debug := false })
        (ofFiles settings root files)) ∧
    ∀ (source : Files → FileSource) (session : Session) (force : Bool)
      (later : List WorkspaceEvent), (∀ event ∈ later, event.isRefresh = false) →
      let settings := session.workspace.settings
      let refreshed := session.workspace.refresh (source session.files) session.now force
      let plan := (session.run source (.refresh force :: later)).workspace.plan
      AreBatches settings.runner.maxParallel
          (refreshed.1.features.map fun feature =>
            { program := settings.runner.program
              arguments :=
                Invocation.pathFrom settings.root feature.path ::
                  Invocation.commonArguments settings.runner
              debug := false })
          plan ∧
        plan.flatten.length = refreshed.2.features := by
  have hfiles (settings : RunnerSettings) (root : String) (files : List String) :
      AreBatches settings.maxParallel (files.map (Invocation.ofFile settings root))
        (ofFiles settings root files) :=
    areBatches_batches _ _
  refine ⟨hfiles, fun source session force later hlater => ?_⟩
  intro settings refreshed plan
  have hplan : plan =
      ofFiles settings.runner settings.root (refreshed.1.features.map Feature.path) :=
    (session.step source (.refresh force)).run_plan source hlater
  have hbatches := hfiles settings.runner settings.root (refreshed.1.features.map Feature.path)
  rw [← hplan, List.map_map] at hbatches
  refine ⟨hbatches, ?_⟩
  rw [hbatches.flatten, List.length_map]
  rfl

theorem Plan.runs_every_file_once_after_notice :
    let source : Files → FileSource := fun _ =>
      { list := fun _ => .ok ["/ws/a.feature", "/ws/b.feature", "/ws/c.feature", "/ws/d.feature"]
        read? := fun path => if path = "/ws/b.feature" then some "" else some "Feature: F" }
    let runner : RunnerSettings := { maxParallel := 2, dryRun := true, format := some "json" }
    let session := Session.start { root := "/ws", runner } 0 []
    let later : List WorkspaceEvent := [.fileChanged "/ws/a.feature", .setStrategy .flat]
    let plan := (session.run source (.refresh false :: later)).workspace.plan
    plan.flatten.map Invocation.arguments =
        [["a.feature", "--format", "json", "--dry-run"],
          ["c.feature", "--format", "json", "--dry-run"],
          ["d.feature", "--format", "json", "--dry-run"]] ∧
      (∀ batch ∈ plan.dropLast, batch.length = 2) ∧ plan.flatten.length = 3 := by
  intro source runner session later plan
  obtain ⟨hbatches, hlength⟩ := runs_every_file_once.2 source session false later (by decide)
  refine ⟨?_, hbatches.full, hlength.trans (by decide +kernel)⟩
  rw [hbatches.flatten]
  decide +kernel

end ScenarioAtlas
