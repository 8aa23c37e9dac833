import ScenarioAtlas.Record.Scenario
import ScenarioAtlas.Settings
import ScenarioAtlas.Workspace

/-!
# Records of workspaces

The JSON forms of settings, of which every field may be left out for its default, and of what a
workspace tells about itself.
-/

namespace ScenarioAtlas

set_option autoImplicit false

namespace Strategy

def toJson (strategy : Strategy) : Json := .string strategy.name

def ofJson? : Json → Option Strategy := Json.toChoice? every name

end Strategy

namespace Naming

def toJson (naming : Naming) : Json :=
  .object [("max_len", .ofNat naming.maxLength), ("truncated_width", .ofNat naming.keptWidth),
    ("ellipsis", .string naming.ellipsis)]

def ofJson? (value : Json) : Option Naming := do
  let fields ← value.fields? ["max_len", "truncated_width", "ellipsis"]
  let default : Naming := {}
  return {
    maxLength := ← fields.withDefault? "max_len" Json.toNat? default.maxLength
    keptWidth := ← fields.withDefault? "truncated_width" Json.toNat? default.keptWidth
    ellipsis := ← fields.withDefault? "ellipsis" Json.toString? default.ellipsis }

end Naming

namespace CacheSettings

def toJson (settings : CacheSettings) : Json :=
  .object [("default_ttl_ms", .ofNat settings.timeToLive),
    ("max_entries", .ofNat settings.maxEntries)]

def ofJson? (value : Json) : Option CacheSettings := do
  let fields ← value.fields? ["default_ttl_ms", "max_entries"]
  let default : CacheSettings := {}
  return {
    timeToLive := ← fields.withDefault? "default_ttl_ms" Json.toNat? default.timeToLive
    maxEntries := ← fields.withDefault? "max_entries" Json.toNat? default.maxEntries }

end CacheSettings

namespace RunnerSettings

def toJson (settings : RunnerSettings) : Json :=
  .object [("program", .string settings.program),
    ("extra_args", .ofStrings settings.extraArguments),
    ("format", .ofString? settings.format),
    ("dry_run", .bool settings.dryRun),
    ("max_parallel", .ofNat settings.maxParallel)]

def ofJson? (value : Json) : Option RunnerSettings := do
  let fields ← value.fields? ["program", "extra_args", "format", "dry_run", "max_parallel"]
  let default : RunnerSettings := {}
  return {
    program := ← fields.withDefault? "program" Json.toString? default.program
    extraArguments := ← fields.withDefault? "extra_args" Json.toStrings? default.extraArguments
    format := ← fields.optional? "format" Json.toString?
    dryRun := ← fields.withDefault? "dry_run" Json.toBool? default.dryRun
    maxParallel := ← fields.withDefault? "max_parallel" Json.toNat? default.maxParallel }

end RunnerSettings

namespace Settings

def toJson (settings : Settings) : Json :=
  .object [("workspace_root", .string settings.root),
    ("feature_glob", .string settings.featureGlob),
    ("follow_links", .bool settings.followLinks),
    ("strategy", settings.strategy.toJson),
    ("cache", settings.cache.toJson),
    ("naming", settings.naming.toJson),
    ("runner", settings.runner.toJson)]

def ofJson? (value : Json) : Option Settings := do
  let fields ← value.fields?
    ["workspace_root", "feature_glob", "follow_links", "strategy", "cache", "naming", "runner"]
  let default : Settings := {}
  return {
    root := ← fields.withDefault? "workspace_root" Json.toString? default.root
    featureGlob := ← fields.withDefault? "feature_glob" Json.toString? default.featureGlob
    followLinks := ← fields.withDefault? "follow_links" Json.toBool? default.followLinks
    strategy := ← fields.withDefault? "strategy" Strategy.ofJson? default.strategy
    cache := ← fields.withDefault? "cache" CacheSettings.ofJson? default.cache
    naming := ← fields.withDefault? "naming" Naming.ofJson? default.naming
    runner := ← fields.withDefault? "runner" RunnerSettings.ofJson? default.runner }

end Settings

def RefreshSummary.toJson (summary : RefreshSummary) : Json :=
  .object [("files", .ofNat summary.files), ("features", .ofNat summary.features),
    ("scenarios", .ofNat summary.scenarios), ("skipped", .ofNat summary.skipped)]

def CacheStats.toJson (stats : CacheStats) : Json :=
  .object [("hits", .ofNat stats.hits), ("misses", .ofNat stats.misses),
    ("evictions", .ofNat stats.evictions), ("entries", .ofNat stats.entries)]

def Cache.countsToJson (cache : Cache) : Json := cache.stats.toJson

end ScenarioAtlas
