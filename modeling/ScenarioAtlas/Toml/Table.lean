/-!
# TOML values and tables under construction

TOML data as a value; of floats and dates nothing is kept but that they are there. A document defines its tables piece by piece, and no piece twice. While it is read, each table knows
how it came about: by a header of its own, or only as a step on the way to another table; and in the
second case, whether that way was a dotted key. A table on the way may still be given its own
header, unless a dotted key made it; a dotted key may go on through it, unless it has a header.
-/

namespace ScenarioAtlas

set_option autoImplicit false

/-- A TOML value; the entries of a table have distinct keys. -/
inductive Toml where
  | string (value : String)
  | integer (value : Int)
  | float
  | boolean (value : Bool)
  | dateTime
  | array (elements : List Toml)
  | table (entries : List (String × Toml))

namespace Toml

mutual

/-- What a key of a table stands for while a document is read. -/
inductive Item where
  | value (value : Toml)
  | table (table : Table)
  /-- The tables under headers in double brackets, last first. -/
  | tables (elements : List Table)

/-- A table while a document is read. -/
inductive Table where
  | mk (onTheWay dotted : Bool) (entries : List (String × Item))

end

namespace Table

def onTheWay : Table → Bool
  | mk onTheWay _ _ => onTheWay

def dotted : Table → Bool
  | mk _ dotted _ => dotted

def entries : Table → List (String × Item)
  | mk _ _ entries => entries

def empty : Table := mk false false []

/-- Sets what a key stands for; a new key comes last. -/
def setEntry (key : String) (item : Item) : List (String × Item) → List (String × Item)
  | [] => [(key, item)]
  | (other, old) :: rest =>
    if other = key then (key, item) :: rest else (other, old) :: setEntry key item rest

def find? (table : Table) (key : String) : Option Item := table.entries.lookup key

def set (table : Table) (key : String) (item : Item) : Table :=
  mk table.onTheWay table.dotted (setEntry key item table.entries)

/-- Changes the table that keys lead to, and makes the tables on the way. A list of tables stands
for its last one. -/
def edit? (byDots : Bool) (change : Table → Option Table) (keys : List String) (table : Table) :
    Option Table :=
  match keys with
  | [] => change table
  | key :: rest =>
    match table.find? key with
    | none =>
      (edit? byDots change rest (mk true byDots [])).map fun below => table.set key (.table below)
    | some (.value _) => none
    | some (.tables []) => none
    | some (.tables (last :: before)) =>
      (edit? byDots change rest last).map fun below => table.set key (.tables (below :: before))
    | some (.table below) =>
      if byDots && !below.onTheWay then none
      else (edit? byDots change rest below).map fun below => table.set key (.table below)

/-- Gives a key of the table at hand its value; a key behind dots has to end in a table that dots
have made. -/
def define? (keys : List String) (key : String) (value : Toml) (table : Table) : Option Table :=
  table.edit? true (fun target =>
    if target.dotted = keys.isEmpty then none
    else if (target.find? key).isSome then none
    else some (target.set key (.value value))) keys

def openTable? (keys : List String) (key : String) (table : Table) : Option Table :=
  table.edit? false (fun parent =>
    match parent.find? key with
    | none => some (parent.set key (.table empty))
    | some (.table found) =>
      if found.onTheWay && !found.dotted then
        some (parent.set key (.table (mk false false found.entries)))
      else none
    | some _ => none) keys

def openElement? (keys : List String) (key : String) (table : Table) : Option Table :=
  table.edit? false (fun parent =>
    match parent.find? key with
    | none => some (parent.set key (.tables [empty]))
    | some (.tables elements) => some (parent.set key (.tables (empty :: elements)))
    | some _ => none) keys

end Table

mutual

def ofItem : Item → Toml
  | .value given => given
  | .table built => ofTable built
  | .tables elements => .array (ofTables elements).reverse

def ofTable : Table → Toml
  | .mk _ _ entries => .table (ofEntries entries)

def ofTables : List Table → List Toml
  | [] => []
  | built :: rest => ofTable built :: ofTables rest

def ofEntries : List (String × Item) → List (String × Toml)
  | [] => []
  | (key, item) :: rest => (key, ofItem item) :: ofEntries rest

end

end Toml

end ScenarioAtlas
