import ScenarioAtlas.Source.Line
import ScenarioAtlas.Text.Search

/-!
# Kinds of lines

What a trimmed line is for the structure of a feature file, read off its first characters alone. The
first kind that fits wins, so an outline's keyword is tried before the shorter one of a scenario.
-/

namespace ScenarioAtlas

set_option autoImplicit false

/-- The two marks that open and close a doc string. -/
inductive Fence where
  | quotes
  | backticks
  deriving DecidableEq, Repr

def Fence.text : Fence → List Char
  | .quotes => ['"', '"', '"']
  | .backticks => ['\x60', '\x60', '\x60']

/-- What a line is for the structure of a feature file. -/
inductive LineKind where
  | blank
  | comment
  | tags (tags : List String)
  | feature (name : String)
  | rule (name : String)
  | background
  | scenario (name : String)
  | outline (name : String)
  | examples (name : String)
  | row
  | fence (fence : Fence)
  | step
  | other
  deriving DecidableEq, Repr

namespace LineKind

def outlineKeywords : List String := ["Scenario Outline:", "Scenario Template:"]

def scenarioKeywords : List String := ["Scenario:", "Example:"]

def examplesKeywords : List String := ["Examples:", "Scenarios:"]

def stepKeywords : List String := ["Given ", "When ", "Then ", "And ", "But ", "* "]

/-- The tags of a line: the words that start with `@` and hold more than that, up to the first word
that starts with `#`. Blanks and commas part the words. -/
def splitTags (s : List Char) : List String :=
  let words := (s.splitOnP fun c => Text.isBlank c || c == ',').filter (!·.isEmpty)
  let words := words.takeWhile (·.head? != some '#')
  (words.filter fun word => word.head? == some '@' && 1 < word.length).map String.ofList

def valueAfter? (keywords : List String) (s : List Char) : Option String :=
  keywords.findSome? fun keyword =>
    (Text.afterStart? keyword.toList s).map fun rest => String.ofList (Text.trim rest)

def fence? (s : List Char) : Option Fence :=
  [Fence.quotes, Fence.backticks].find? (·.text.isPrefixOf s)

def header? (s : List Char) : Option LineKind :=
  (valueAfter? ["Feature:"] s).map feature
    <|> (valueAfter? ["Rule:"] s).map rule
    <|> (valueAfter? ["Background:"] s).map (fun _ => background)
    <|> (valueAfter? outlineKeywords s).map outline
    <|> (valueAfter? examplesKeywords s).map examples
    <|> (valueAfter? scenarioKeywords s).map scenario

/-- The kind of a line, given without the blanks around it. -/
def classify (s : List Char) : LineKind :=
  match s with
  | [] => blank
  | '#' :: _ => comment
  | '@' :: _ => tags (splitTags s)
  | '|' :: _ => row
  | _ =>
    match fence? s, header? s with
    | some mark, _ => fence mark
    | none, some kind => kind
    | none, none => if stepKeywords.any (·.toList.isPrefixOf s) then step else other

end LineKind

def Line.kind (line : Line) : LineKind := LineKind.classify line.trimmed

end ScenarioAtlas
