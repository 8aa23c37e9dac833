import ScenarioAtlas.Glob.Token

/-!
# Reading glob patterns

`?` is one byte, `*` a run of bytes inside a segment, `[…]` a set of bytes, `{…,…}` a choice, and a
backslash takes the next character as it is. Two stars that make up a whole segment stand for
folders; any other two are two runs. Sets and choices may not stay open, and a range may not run
backwards.
-/

namespace ScenarioAtlas.Glob

set_option autoImplicit false

/-- How the next character is to be read. -/
inductive Mode where
  | plain
  | escaped
  /-- Inside a set: whether it is negated, whether nothing was read of it so far, whether a dash
  that may make a range came last, and the ranges so far, last first. -/
  | set (negated first inRange : Bool) (ranges : List (Char × Char))

/-- The tokens read so far, last first, in the pattern or the branch that is open; and for each open
choice, innermost first, its earlier branches, last first, and the tokens in front of it. -/
structure Draft where
  tokens : List GlobToken := []
  choices : List (List (List GlobToken) × List GlobToken) := []

namespace Draft

def push (draft : Draft) (token : GlobToken) : Draft :=
  { draft with tokens := token :: draft.tokens }

def pushRuns (draft : Draft) : Draft := (draft.push .run).push .run

def openChoice (draft : Draft) : Draft :=
  { tokens := [], choices := ([], draft.tokens) :: draft.choices }

/-- Ends the open branch of a choice; outside of choices a comma is itself. -/
def nextBranch (draft : Draft) : Draft :=
  match draft.choices with
  | (branches, outer) :: rest =>
    { tokens := [], choices := (draft.tokens.reverse :: branches, outer) :: rest }
  | [] => draft.push (.literal ',')

def closeChoice? (draft : Draft) : Option Draft :=
  match draft.choices with
  | (branches, outer) :: rest =>
    let choice := GlobToken.choice (draft.tokens.reverse :: branches).reverse
    some { tokens := choice :: outer, choices := rest }
  | [] => none

/-- Puts folders in place of the token before them, which is the separator that they follow. Folders
at the start and everything below a folder take in what follows. -/
def pushFolders (draft : Draft) (folders : GlobToken) : Draft :=
  match draft.tokens with
  | .leadingFolders :: _ | .everythingBelow :: _ => draft
  | _ :: before => { draft with tokens := folders :: before }
  | [] => draft.push folders

end Draft

/-- What two stars stand for, given the character before them and those behind. -/
inductive Stars where
  | runs
  /-- Folders at the start; a separator behind them belongs to them. -/
  | leading
  /-- Folders between two separators, the second of which belongs to them. -/
  | inner
  | below

/-- What two stars stand for. In a choice, a comma or brace can take the place of a separator. -/
def starsAfter (draft : Draft) (previous : Option Char) (rest : List Char) : Stars :=
  if draft.tokens.isEmpty then
    match rest with
    | [] | '/' :: _ => .leading
    | _ => .runs
  else if previous ≠ some '/' ∧
      (draft.choices.isEmpty ∨ (previous ≠ some ',' ∧ previous ≠ some '\x7b')) then .runs
  else
    match rest with
    | [] => .below
    | '/' :: _ => .inner
    | c :: _ => if !draft.choices.isEmpty ∧ (c = ',' ∨ c = '\x7d') then .below else .runs

def extendRange (ranges : List (Char × Char)) (last : Char) :
    Except GlobFault (List (Char × Char)) :=
  match ranges with
  | (first, _) :: rest =>
    if last < first then .error (.invalidRange first last) else .ok ((first, last) :: rest)
  | [] => .ok [(last, last)]

/-- Reads a pattern, given the character before it and what came of the text up to there. -/
def readFrom (previous : Option Char) (mode : Mode) (draft : Draft) :
    List Char → Except GlobFault Draft
  | [] =>
    match mode with
    | .plain => .ok draft
    | .escaped => .error .danglingEscape
    | .set .. => .error .unclosedSet
  | c :: s =>
    match mode with
    | .escaped => readFrom (some c) .plain (draft.push (.literal c)) s
    | .set negated first inRange ranges =>
      if c = ']' ∧ !first then
        let ranges := if inRange then ('-', '-') :: ranges else ranges
        readFrom (some c) .plain (draft.push (.oneOf negated ranges.reverse)) s
      else if inRange then
        match extendRange ranges c with
        | .ok ranges => readFrom (some c) (.set negated false false ranges) draft s
        | .error fault => .error fault
      else if c = '-' ∧ !first then readFrom (some c) (.set negated false true ranges) draft s
      else readFrom (some c) (.set negated false false ((c, c) :: ranges)) draft s
    | .plain =>
      match c, s with
      | '?', s => readFrom (some c) .plain (draft.push .one) s
      | '*', '*' :: s =>
        match starsAfter draft previous s, s with
        | .leading, '/' :: s => readFrom (some '/') .plain (draft.push .leadingFolders) s
        | .leading, s => readFrom (some '*') .plain (draft.push .leadingFolders) s
        | .inner, '/' :: s => readFrom (some '/') .plain (draft.pushFolders .innerFolders) s
        | .below, s => readFrom (some '*') .plain (draft.pushFolders .everythingBelow) s
        | _, s => readFrom (some '*') .plain draft.pushRuns s
      | '*', s => readFrom (some c) .plain (draft.push .run) s
      | '[', '!' :: s => readFrom (some '!') (.set true true false []) draft s
      | '[', '^' :: s => readFrom (some '^') (.set true true false []) draft s
      | '[', s => readFrom (some c) (.set false true false []) draft s
      | '\x7b', s => readFrom (some c) .plain draft.openChoice s
      | '\x7d', s =>
        match draft.closeChoice? with
        | some draft => readFrom (some c) .plain draft s
        | none => .error .unopenedChoice
      | ',', s => readFrom (some c) .plain draft.nextBranch s
      | '\\', s => readFrom (some c) .escaped draft s
      | _, s => readFrom (some c) .plain (draft.push (.literal c)) s

def read (pattern : String) : Except GlobError (List GlobToken) :=
  match readFrom none .plain {} pattern.toList with
  | .ok draft =>
    if draft.choices.isEmpty then .ok draft.tokens.reverse
    else .error ⟨pattern, .unclosedChoice⟩
  | .error fault => .error ⟨pattern, fault⟩

end ScenarioAtlas.Glob
