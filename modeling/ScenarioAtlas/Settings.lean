import ScenarioAtlas.Disk
import ScenarioAtlas.Example.Name
import ScenarioAtlas.Glob.Reader
import ScenarioAtlas.Group.Strategy
import ScenarioAtlas.Listing.Cache
import ScenarioAtlas.Runner.Invocation

/-!
# Settings

What can be set for a workspace, the values that cannot be used, and why no settings come from a
file.
-/

namespace ScenarioAtlas

set_option autoImplicit false

structure Settings where
  /-- The folder that paths and result keys are relative to. -/
  root : String := "."
  featureGlob : String := "**/*.feature"
  followLinks : Bool := false
  strategy : Strategy := .initial
  cache : CacheSettings := {}
  naming : Naming := {}
  runner : RunnerSettings := {}
  deriving DecidableEq, Repr

inductive InvalidSetting where
  | featureGlob (error : GlobError)
  | emptyProgram
  | noParallelRuns
  deriving DecidableEq, Repr

namespace InvalidSetting

def field : InvalidSetting → String
  | featureGlob _ => "feature_glob"
  | emptyProgram => "runner.program"
  | noParallelRuns => "runner.max_parallel"

def reason : InvalidSetting → String
  | featureGlob error => error.message
  | emptyProgram => "must not be empty"
  | noParallelRuns => "must be at least 1"

end InvalidSetting

inductive SettingsError where
  | unreadable (path : String) (fault : DiskFault)
  /-- The text is no TOML, or sets something to a value of another kind. -/
  | malformed
  | invalid (setting : InvalidSetting)
  deriving DecidableEq, Repr

def SettingsError.message : SettingsError → String
  | unreadable path fault => "cannot read config file " ++ path ++ ": " ++ fault.message
  | malformed => "invalid config"
  | invalid setting =>
    "invalid config value for '" ++ setting.field ++ "': " ++ setting.reason

namespace Settings

def fileName : String := "fx.toml"

def invalid? (settings : Settings) : Option InvalidSetting :=
  match Glob.read settings.featureGlob with
  | .error error => some (.featureGlob error)
  | .ok _ =>
    if (Text.trim settings.runner.program.toList).isEmpty then some .emptyProgram
    else if settings.runner.maxParallel = 0 then some .noParallelRuns
    else none

def validate (settings : Settings) : Except SettingsError Settings :=
  match settings.invalid? with
  | some setting => .error (.invalid setting)
  | none => .ok settings

end Settings

end ScenarioAtlas
