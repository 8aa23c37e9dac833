import ScenarioAtlas.Json.Reader

/-!
# Space, comments and strings of TOML

The parts of a TOML text that are made of free characters. Control characters other than the tab are
refused everywhere, comments included.
-/

namespace ScenarioAtlas.Toml

set_option autoImplicit false

def isSpace (c : Char) : Bool := c == ' ' || c == '\t'

def skipSpace (s : List Char) : List Char := s.dropWhile isSpace

def isText (c : Char) : Bool := c == '\t' || (0x20 ≤ c.toNat && c.toNat ≠ 0x7f)

def afterBreak? : List Char → Option (List Char)
  | '\n' :: s => some s
  | '\r' :: '\n' :: s => some s
  | _ => none

def skipComment : List Char → List Char
  | '#' :: s => s.dropWhile isText
  | s => s

def afterLine? (s : List Char) : Option (List Char) :=
  match skipComment (skipSpace s) with
  | [] => some []
  | s => afterBreak? s

def skipLines (inComment : Bool) : List Char → List Char
  | [] => []
  | '\n' :: s => skipLines false s
  | '\r' :: '\n' :: s => skipLines false s
  | c :: s =>
    if inComment then (if isText c then skipLines true s else c :: s)
    else if isSpace c then skipLines false s
    else if c = '#' then skipLines true s
    else c :: s

def codePoint? (digits : List Char) : Option Char := do
  let n ← Json.hexValue? digits
  if n < 0xd800 ∨ (0xdfff < n ∧ n < 0x110000) then some (Char.ofNat n) else none

def escaped? : Char → Option Char
  | '"' => some '"'
  | '\\' => some '\\'
  | 'b' => some '\x08'
  | 'f' => some '\x0c'
  | 'n' => some '\n'
  | 'r' => some '\r'
  | 't' => some '\t'
  | _ => none

/-- Whether a line ends behind a backslash, so that it and the space up to the next character are to
be passed over. -/
def endsLine (s : List Char) : Bool := (afterBreak? (skipSpace s)).isSome

/-- Reads a string of one line behind its opening quote; `done` is what was read so far, last
first. -/
def readBasic? (done : List Char) : List Char → Option (String × List Char)
  | [] => none
  | '\\' :: 'u' :: a :: b :: c :: d :: s =>
    (codePoint? [a, b, c, d]).bind fun c => readBasic? (c :: done) s
  | '\\' :: 'U' :: a :: b :: c :: d :: e :: f :: g :: h :: s =>
    (codePoint? [a, b, c, d, e, f, g, h]).bind fun c => readBasic? (c :: done) s
  | '\\' :: c :: s => (escaped? c).bind fun c => readBasic? (c :: done) s
  | c :: s =>
    if c = '"' then some (String.ofList done.reverse, s)
    else if c = '\\' ∨ !isText c then none
    else readBasic? (c :: done) s

/-- Reads a string of several lines behind its opening quotes. It ends at three quotes, to which up
to two more in front of them do not belong. In `trimming`, space and line breaks are passed over. -/
def readLongBasic? (trimming : Bool) (done : List Char) : List Char → Option (String × List Char)
  | [] => none
  | '"' :: '"' :: '"' :: '"' :: '"' :: s => some (String.ofList ('"' :: '"' :: done).reverse, s)
  | '"' :: '"' :: '"' :: '"' :: s => some (String.ofList ('"' :: done).reverse, s)
  | '"' :: '"' :: '"' :: s => some (String.ofList done.reverse, s)
  | '\\' :: 'u' :: a :: b :: c :: d :: s =>
    (codePoint? [a, b, c, d]).bind fun c => readLongBasic? false (c :: done) s
  | '\\' :: 'U' :: a :: b :: c :: d :: e :: f :: g :: h :: s =>
    (codePoint? [a, b, c, d, e, f, g, h]).bind fun c => readLongBasic? false (c :: done) s
  | '\r' :: '\n' :: s => readLongBasic? trimming (if trimming then done else '\n' :: done) s
  | '\n' :: s => readLongBasic? trimming (if trimming then done else '\n' :: done) s
  | '\\' :: c :: s =>
    match escaped? c with
    | some c => readLongBasic? false (c :: done) s
    | none => if endsLine (c :: s) then readLongBasic? true done s else none
  | c :: s =>
    if trimming && isSpace c then readLongBasic? true done s
    else if c = '\\' ∨ !isText c then none
    else readLongBasic? false (c :: done) s

def readLiteral? (s : List Char) : Option (String × List Char) :=
  match s.dropWhile fun c => isText c && c != '\'' with
  | '\'' :: rest =>
    some (String.ofList (s.takeWhile fun c => isText c && c != '\''), rest)
  | _ => none

def readLongLiteral? (done : List Char) : List Char → Option (String × List Char)
  | [] => none
  | '\'' :: '\'' :: '\'' :: '\'' :: '\'' :: s =>
    some (String.ofList ('\'' :: '\'' :: done).reverse, s)
  | '\'' :: '\'' :: '\'' :: '\'' :: s => some (String.ofList ('\'' :: done).reverse, s)
  | '\'' :: '\'' :: '\'' :: s => some (String.ofList done.reverse, s)
  | '\r' :: '\n' :: s => readLongLiteral? ('\n' :: done) s
  | '\n' :: s => readLongLiteral? ('\n' :: done) s
  | c :: s => if isText c then readLongLiteral? (c :: done) s else none

def dropBreak (s : List Char) : List Char := (afterBreak? s).getD s

def readString? : List Char → Option (String × List Char)
  | '"' :: '"' :: '"' :: s => readLongBasic? false [] (dropBreak s)
  | '"' :: s => readBasic? [] s
  | '\'' :: '\'' :: '\'' :: s => readLongLiteral? [] (dropBreak s)
  | '\'' :: s => readLiteral? s
  | _ => none

end ScenarioAtlas.Toml
