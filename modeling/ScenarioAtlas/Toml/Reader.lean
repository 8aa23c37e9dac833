import ScenarioAtlas.Toml.Number
import ScenarioAtlas.Toml.Table
import ScenarioAtlas.Toml.Text

/-!
# Reading TOML

A reader for version 1.0 of TOML. A text is refused as a whole if any of its lines is malformed, if
it defines something twice, or if its values or keys are nested too deep.
-/

namespace ScenarioAtlas.Toml

set_option autoImplicit false

def nestingLimit : Nat := 80

def keyLimit : Nat := nestingLimit - 1

def isBareKey (c : Char) : Bool := c.isAlphanum || c == '_' || c == '-'

def readKeyPart? (s : List Char) : Option (String × List Char) :=
  match s with
  | '"' :: s => readBasic? [] s
  | '\'' :: s => readLiteral? s
  | _ =>
    let bare := s.takeWhile isBareKey
    if bare.isEmpty then none else some (String.ofList bare, s.dropWhile isBareKey)

/-- Reads a key with the space around it: the parts before its last dot, and the last part. -/
def readKey? (fuel : Nat) (s : List Char) : Option (List String × String × List Char) :=
  match fuel with
  | 0 => none
  | fuel + 1 => do
    let (part, s) ← readKeyPart? (skipSpace s)
    match skipSpace s with
    | '.' :: s =>
      let (front, last, s) ← readKey? fuel s
      return (part :: front, last, s)
    | s => return ([], part, s)

mutual

/-- Reads a value; `depth` is how deep values may still be nested, and `fuel` bounds the calls. -/
def readValue? (fuel depth : Nat) (s : List Char) : Option (Toml × List Char) :=
  match fuel with
  | 0 => none
  | fuel + 1 =>
    match s with
    | 't' :: 'r' :: 'u' :: 'e' :: s => some (.boolean true, s)
    | 'f' :: 'a' :: 'l' :: 's' :: 'e' :: s => some (.boolean false, s)
    | '[' :: s =>
      if depth ≤ 1 then none
      else (readElements? fuel (depth - 1) s).map fun (elements, s) => (.array elements, s)
    | '\x7b' :: s =>
      if depth ≤ 1 then none
      else
        match skipSpace s with
        | '\x7d' :: s => some (.table [], s)
        | s => (readEntries? fuel (depth - 1) .empty s).map fun (built, s) => (ofTable built, s)
    | '"' :: _ | '\'' :: _ => (readString? s).map fun (text, s) => (.string text, s)
    | _ => readNumber? s

/-- Reads the elements of an array and the bracket behind them; lines may break between them, and a
comma may stand behind the last one. -/
def readElements? (fuel depth : Nat) (s : List Char) : Option (List Toml × List Char) :=
  match fuel with
  | 0 => none
  | fuel + 1 =>
    match skipLines false s with
    | ']' :: s => some ([], s)
    | s => do
      let (element, s) ← readValue? fuel depth s
      match skipLines false s with
      | ',' :: s =>
        let (elements, s) ← readElements? fuel depth s
        return (element :: elements, s)
      | ']' :: s => return ([element], s)
      | _ => none

/-- Reads the entries of a table between braces, of which there is one, and the closing brace. -/
def readEntries? (fuel depth : Nat) (built : Table) (s : List Char) :
    Option (Table × List Char) :=
  match fuel with
  | 0 => none
  | fuel + 1 => do
    let (front, key, s) ← readKey? keyLimit s
    match s with
    | '=' :: s =>
      let (value, s) ← readValue? fuel depth (skipSpace s)
      let built ← built.define? front key value
      match skipSpace s with
      | ',' :: s => readEntries? fuel depth built s
      | '\x7d' :: s => return (built, s)
      | _ => none
    | _ => none

end

/-- A document after some of its lines: the root table, and the keys of the header last read. -/
structure Document where
  root : Table := .empty
  header : List String := []

/-- Reads a line that gives a key its value, up to the value's end. -/
def readEntry? (fuel : Nat) (document : Document) (s : List Char) :
    Option (Document × List Char) := do
  let (front, key, s) ← readKey? keyLimit s
  match s with
  | '=' :: s =>
    let (value, s) ← readValue? fuel nestingLimit (skipSpace s)
    let root ← document.root.edit? false (Table.define? front key value) document.header
    return ({ document with root }, s)
  | _ => none

def readHeader? (document : Document) (s : List Char) : Option (Document × List Char) :=
  match s with
  | '[' :: s => do
    let (front, key, s) ← readKey? keyLimit s
    match s with
    | ']' :: ']' :: s =>
      return (⟨← document.root.openElement? front key, front ++ [key]⟩, s)
    | _ => none
  | s => do
    let (front, key, s) ← readKey? keyLimit s
    match s with
    | ']' :: s => return (⟨← document.root.openTable? front key, front ++ [key]⟩, s)
    | _ => none

/-- Reads the lines of a document; `fuel` bounds the calls. -/
def readDocument? (fuel : Nat) (document : Document) (s : List Char) : Option Document :=
  match fuel with
  | 0 => none
  | fuel + 1 =>
    match skipLines false s with
    | [] => some document
    | '[' :: s => do
      let (document, s) ← readHeader? document s
      readDocument? fuel document (← afterLine? s)
    | s => do
      let (document, s) ← readEntry? (fuel + 1) document s
      readDocument? fuel document (← afterLine? s)

/-- The root table of a document, without the byte order mark that may open it. -/
def read? (text : String) : Option Toml :=
  let s := match text.toList with
    | '\ufeff' :: s => s
    | s => s
  (readDocument? (2 * s.length + 2) {} s).map fun document => ofTable document.root

end ScenarioAtlas.Toml
