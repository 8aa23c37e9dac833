import ScenarioAtlas.Glob.Matcher
import ScenarioAtlas.Listing.Walk
import ScenarioAtlas.Path
import ScenarioAtlas.Text.Digit

/-!
# The cache of listings

Lists of files by the pattern they were listed for. Asking for a list has up to three steps, and the
steps of several requests may come in any order: a look-up, which counts as a hit or a miss; after a
miss a scan of the files, outside of the cache; and then either storing what was found, which also
evicts, or recalling the last list when the scan failed. Times are in milliseconds, and the clock
may run backwards.
-/

namespace ScenarioAtlas

set_option autoImplicit false

structure CacheSettings where
  timeToLive : Nat := 300000
  maxEntries : Nat := 100
  deriving DecidableEq, Repr

/-- The settings with a time to live in seconds and nanoseconds; whole milliseconds are kept of it,
as many as can be written as a number. -/
def CacheSettings.withTimeToLive (settings : CacheSettings) (seconds nanoseconds : Nat) :
    CacheSettings :=
  { settings with
    timeToLive := min (1000 * seconds + nanoseconds / 1000000) (Text.numberBound - 1) }

/-- A list of files and when the request for it began. -/
structure CacheEntry where
  timestamp : Nat
  files : List String
  deriving DecidableEq, Repr

/-- The lists by pattern, no pattern twice, and what happened so far. -/
structure Cache where
  entries : List (String × CacheEntry) := []
  hits : Nat := 0
  misses : Nat := 0
  evictions : Nat := 0
  deriving DecidableEq, Repr

/-- What happened in a cache so far and how many entries it has, in numbers. -/
structure CacheStats where
  hits : Nat
  misses : Nat
  evictions : Nat
  entries : Nat
  deriving DecidableEq, Repr

namespace Cache

/-- How a list is asked for: at most how old it may be, where that differs from the cache's own
bound, and whether it has to be made anew. -/
structure Request where
  pattern : String
  maxAge : Option Nat := none
  force : Bool := false
  deriving DecidableEq, Repr

variable (settings : CacheSettings) (cache : Cache) (now : Nat)

/-- What is kept for a pattern, fresh or not. -/
def peek? (pattern : String) : Option CacheEntry := cache.entries.lookup pattern

/-- What is kept for a pattern, if it answers a request at the time `now`. An entry from the future
is as fresh as one of this moment. -/
def fresh? (request : Request) : Option CacheEntry :=
  if request.force then none
  else
    (cache.peek? request.pattern).filter fun entry =>
      decide (now - entry.timestamp < request.maxAge.getD settings.timeToLive)

/-- The first step of a request: the list, if there is a fresh one. -/
def lookup (request : Request) : Cache × Option (List String) :=
  match cache.fresh? settings now request with
  | some entry => ({ cache with hits := cache.hits + 1 }, some entry.files)
  | none => ({ cache with misses := cache.misses + 1 }, none)

/-- Entries with the one of a pattern set; a new one comes last. -/
def setEntry (pattern : String) (entry : CacheEntry) :
    List (String × CacheEntry) → List (String × CacheEntry)
  | [] => [(pattern, entry)]
  | (other, old) :: rest =>
    if other = pattern then (pattern, entry) :: rest
    else (other, old) :: setEntry pattern entry rest

/-- Whether an entry goes before another one does: by time, and by pattern at the same time. -/
def dropsBefore (a b : String × CacheEntry) : Bool :=
  ((compare a.2.timestamp b.2.timestamp).then (compare a.1 b.1)).isLE

def unexpired (entries : List (String × CacheEntry)) : List (String × CacheEntry) :=
  entries.filter fun (_, entry) => decide (now - entry.timestamp ≤ settings.timeToLive)

/-- The patterns that are dropped for there being too many. -/
def excess (entries : List (String × CacheEntry)) : List String :=
  ((entries.mergeSort dropsBefore).take (entries.length - settings.maxEntries)).map Prod.fst

/-- The entries that stay after a write: those that are not too old, without the oldest of them
where there are too many. -/
def retained (entries : List (String × CacheEntry)) : List (String × CacheEntry) :=
  let kept := unexpired settings now entries
  let dropped := excess settings kept
  kept.filter fun (pattern, _) => pattern ∉ dropped

/-- Keeps the list that a request begun at `now` has found, and evicts. -/
def store (pattern : String) (files : List String) : Cache :=
  let written := setEntry pattern ⟨now, files⟩ cache.entries
  let entries := retained settings now written
  { cache with entries, evictions := cache.evictions + (written.length - entries.length) }

/-- The list for a request whose scan has failed: the last one, or none at all. -/
def lastKnown (pattern : String) : List String :=
  ((cache.peek? pattern).map CacheEntry.files).getD []

/-- The files for a request, without other requests in between. -/
def discover (request : Request) (scan : String → Except ListingError (List String)) :
    Cache × List String :=
  match cache.lookup settings now request with
  | (looked, some files) => (looked, files)
  | (looked, none) =>
    match scan request.pattern with
    | .ok files => (looked.store settings now request.pattern files, files)
    | .error _ => (looked, looked.lastKnown request.pattern)

def invalidate (pattern : String) : Cache × Bool :=
  ({ cache with entries := cache.entries.filter (·.1 ≠ pattern) }, (cache.peek? pattern).isSome)

/-- Whether the list for a pattern stays right when a file at `path`, a normalized one, comes or
goes. A pattern that does not start at the root may match any end of the path. -/
def isUnaffected (path : List Char) (pattern : String) : Bool :=
  match Glob.read pattern with
  | .ok tokens =>
    !Glob.matchesPath tokens path &&
      (Path.isRooted pattern.toList || !Glob.patternMatches ("**/" ++ pattern) path)
  | .error _ => false

/-- Drops every entry that a file at `path` may be listed in; tells how many there were. -/
def invalidateMatching (path : String) : Cache × Nat :=
  let path := Path.normalize path.toList
  let entries := cache.entries.filter fun (pattern, _) => isUnaffected path pattern
  ({ cache with entries }, cache.entries.length - entries.length)

def clear : Cache := { cache with entries := [] }

def stats : CacheStats :=
  { hits := cache.hits
    misses := cache.misses
    evictions := cache.evictions
    entries := cache.entries.length }

end Cache

end ScenarioAtlas
