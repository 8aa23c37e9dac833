import ScenarioAtlas.Settings
import ScenarioAtlas.Toml.Reader

/-!
# Settings files

The settings in a TOML document. What a document does not set keeps its default, and what it sets
besides is passed over. The settings of a part may also be given as a list, in their order. A root
that is not absolute is meant from the folder of the file.
-/

namespace ScenarioAtlas

set_option autoImplicit false

namespace Toml

def toString? : Toml → Option String
  | string value => some value
  | _ => none

def toBool? : Toml → Option Bool
  | boolean value => some value
  | _ => none

def toNat? : Toml → Option Nat
  | integer value => if 0 ≤ value then some value.toNat else none
  | _ => none

def toStrings? : Toml → Option (List String)
  | array elements => elements.mapM toString?
  | _ => none

def isNothing : Toml → Bool
  | table entries => entries.isEmpty
  | array elements => elements.isEmpty
  | _ => false

/-- A strategy by its name, which may also be the only key of a table, for nothing. -/
def toStrategy? : Toml → Option Strategy
  | string name => Strategy.every.find? (·.name = name)
  | table [(name, value)] =>
    if value.isNothing then Strategy.every.find? (·.name = name) else none
  | _ => none

/-- The settings that a value gives to a part, by their names; in a list they come in order. -/
def settings? (names : List String) : Toml → Option (List (String × Toml))
  | table entries => some entries
  | array elements => some (names.zip elements)
  | dateTime => some []
  | _ => none

/-- The setting of a name, or the default. -/
def setting? {α : Type} (entries : List (String × Toml)) (name : String)
    (read : Toml → Option α) (default : α) : Option α :=
  match entries.lookup name with
  | some value => read value
  | none => some default

def toCacheSettings? (value : Toml) : Option CacheSettings := do
  let entries ← value.settings? ["default_ttl_ms", "max_entries"]
  return {
    timeToLive := ← setting? entries "default_ttl_ms" toNat? ({} : CacheSettings).timeToLive
    maxEntries := ← setting? entries "max_entries" toNat? ({} : CacheSettings).maxEntries }

def toNaming? (value : Toml) : Option Naming := do
  let entries ← value.settings? ["max_len", "truncated_width", "ellipsis"]
  return {
    maxLength := ← setting? entries "max_len" toNat? ({} : Naming).maxLength
    keptWidth := ← setting? entries "truncated_width" toNat? ({} : Naming).keptWidth
    ellipsis := ← setting? entries "ellipsis" toString? ({} : Naming).ellipsis }

def toRunnerSettings? (value : Toml) : Option RunnerSettings := do
  let entries ← value.settings? ["program", "extra_args", "format", "dry_run", "max_parallel"]
  return {
    program := ← setting? entries "program" toString? ({} : RunnerSettings).program
    extraArguments := ← setting? entries "extra_args" toStrings? []
    format := ← setting? entries "format" (fun value => value.toString?.map some) none
    dryRun := ← setting? entries "dry_run" toBool? ({} : RunnerSettings).dryRun
    maxParallel := ← setting? entries "max_parallel" toNat? ({} : RunnerSettings).maxParallel }

def toSettings? (value : Toml) : Option Settings := do
  let entries ← value.settings?
    ["workspace_root", "feature_glob", "follow_links", "strategy", "cache", "naming", "runner"]
  return {
    root := ← setting? entries "workspace_root" toString? ({} : Settings).root
    featureGlob := ← setting? entries "feature_glob" toString? ({} : Settings).featureGlob
    followLinks := ← setting? entries "follow_links" toBool? ({} : Settings).followLinks
    strategy := ← setting? entries "strategy" toStrategy? ({} : Settings).strategy
    cache := ← setting? entries "cache" toCacheSettings? {}
    naming := ← setting? entries "naming" toNaming? {}
    runner := ← setting? entries "runner" toRunnerSettings? {} }

end Toml

namespace Settings

def ofText (text : String) : Except SettingsError Settings :=
  match (Toml.read? text).bind Toml.toSettings? with
  | some settings => settings.validate
  | none => .error .malformed

def fromFolderOf (path : String) (settings : Settings) : Settings :=
  match Path.isRooted settings.root.toList, Path.parent? path.toList with
  | false, some folder =>
    { settings with root := String.ofList (Path.join folder settings.root.toList) }
  | _, _ => settings

def load (disk : Disk) (path : String) : Except SettingsError Settings :=
  match disk.readText path with
  | .error fault => .error (.unreadable path fault)
  | .ok text => (ofText text).map (fromFolderOf path)

/-- The settings of the workspace at a root: from its file, or the defaults if there is none. -/
def discover (disk : Disk) (root : String) : Except SettingsError Settings :=
  let path := String.ofList (Path.join root.toList fileName.toList)
  if disk.isFile path then load disk path else .ok { root }

end Settings

end ScenarioAtlas
