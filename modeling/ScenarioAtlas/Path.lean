import ScenarioAtlas.Text.Search

/-!
# Paths

Path texts in two spellings: one where both `/` and `\` separate (for keys and display), and one
where only `/` does (for files on disk). Nothing is resolved here: `.` and `..` stay as written.
-/

namespace ScenarioAtlas.Path

set_option autoImplicit false

def isSeparator (c : Char) : Bool := c == '/' || c == '\\'

/-- A path with every separator written `/`. -/
def normalize (path : List Char) : List Char := path.map fun c => if c = '\\' then '/' else c

/-- A text without the `/` at its end. -/
def dropTrailingSlashes (path : List Char) : List Char :=
  (path.reverse.dropWhile (· == '/')).reverse

/-- A path as seen from `root`, both normalized; a path that does not lie at or below `root` stays
whole, and so does every path where `root` has nothing but separators. -/
def relativeTo (path root : List Char) : List Char :=
  let path := normalize path
  let root := dropTrailingSlashes (normalize root)
  if root.isEmpty then path
  else
    match Text.afterStart? root path with
    | some [] => []
    | some ('/' :: rest) => rest.dropWhile (· == '/')
    | _ => path

/-- Whether a path starts at a separator or at a drive letter. -/
def isAbsolute : List Char → Bool
  | c :: ':' :: sep :: _ => isSeparator c || (c.isAlpha && isSeparator sep)
  | c :: _ => isSeparator c
  | [] => false

def fileName (path : List Char) : List Char := (path.reverse.takeWhile (!isSeparator ·)).reverse

/-- Whether a path starts at the root of the disk. -/
def isRooted (path : List Char) : Bool := path.head? == some '/'

/-- The path `rest` as read from `base`. -/
def join (base rest : List Char) : List Char :=
  if isRooted rest || base.isEmpty then rest
  else if base.getLast? == some '/' then base ++ rest
  else base ++ '/' :: rest

/-- Whether a segment adds nothing to the path it stands in. -/
def isIdleSegment (segment : List Char) : Bool := segment.isEmpty || segment == ['.']

/-- The segments of a path that name something, with `..` among them. -/
def segments (path : List Char) : List (List Char) :=
  (Text.fields '/' path).filter (!isIdleSegment ·)

/-- The last segment, unless there is none or it is `..`. -/
def lastName? (path : List Char) : Option (List Char) :=
  (segments path).getLast?.filter (· != ['.', '.'])

/-- The part of the last segment after its last dot, where something comes before that dot. -/
def extension? (path : List Char) : Option (List Char) := do
  let (stem, extension) ← Text.cutLast? '.' (← lastName? path)
  if stem.isEmpty then none else some extension

/-- The segments, last first, without the idle ones that end them; a path's own first `.` counts. -/
def dropIdle : List (List Char) → List (List Char)
  | [segment] => if segment.isEmpty then [] else [segment]
  | segment :: rest => if isIdleSegment segment then dropIdle rest else segment :: rest
  | [] => []

/-- The path of the folder that holds a path's last segment; nothing holds the root. -/
def parent? (path : List Char) : Option (List Char) :=
  let join := fun parts => List.intercalate ['/'] (List.reverse parts)
  match path with
  | '/' :: rest =>
    match (Text.fields '/' rest).reverse.dropWhile isIdleSegment with
    | [] => none
    | _ :: above => some ('/' :: join (above.dropWhile isIdleSegment))
  | _ =>
    match dropIdle (Text.fields '/' path).reverse with
    | [] => none
    | _ :: above => some (join (dropIdle above))

end ScenarioAtlas.Path
