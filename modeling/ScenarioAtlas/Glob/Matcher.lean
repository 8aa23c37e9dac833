import ScenarioAtlas.Glob.Reader

/-!
# Matching paths against glob patterns

A pattern matches a path as a whole, and works on the bytes of the path's UTF-8 form. Matching keeps
the set of all rests that a part of the pattern can leave, and hands them to the next part.
-/

namespace ScenarioAtlas

set_option autoImplicit false

def utf8Bytes (s : List Char) : List UInt8 := s.flatMap String.utf8EncodeChar

namespace Glob

def separator : UInt8 := 47

/-- The rests of a text after runs of bytes that are all accepted, the empty run among them. -/
def restsAfterRun (accept : UInt8 → Bool) : List UInt8 → List (List UInt8)
  | [] => [[]]
  | b :: s => (b :: s) :: if accept b then restsAfterRun accept s else []

def restsBehindSeparators : List UInt8 → List (List UInt8)
  | [] => []
  | b :: s => (if b = separator then [s] else []) ++ restsBehindSeparators s

/-- The ranges of bytes that a range of characters stands for: its two ends are written in UTF-8,
and the range runs from the last byte of the first one to the first byte of the other. -/
def byteRanges (range : Char × Char) : List (UInt8 × UInt8) :=
  let single := fun b : UInt8 => (b, b)
  let first := String.utf8EncodeChar range.1
  let last := String.utf8EncodeChar range.2
  if range.1 = range.2 then first.map single
  else
    match first.getLast?, last.head? with
    | some low, some high =>
      first.dropLast.map single ++ (low, high) :: last.tail.map single
    | _, _ => []

def inRanges (ranges : List (Char × Char)) (b : UInt8) : Bool :=
  (ranges.flatMap byteRanges).any fun (low, high) => low ≤ b && b ≤ high

mutual

/-- Whether a token asks for nothing: a choice of which every branch does. -/
def asksNothing : GlobToken → Bool
  | .choice branches => noneAsks branches
  | _ => false

def allAskNothing : List GlobToken → Bool
  | [] => true
  | token :: rest => asksNothing token && allAskNothing rest

def noneAsks : List (List GlobToken) → Bool
  | [] => true
  | branch :: rest => allAskNothing branch && noneAsks rest

end

def restsAfterOne (accept : UInt8 → Bool) : List UInt8 → List (List UInt8)
  | [] => []
  | b :: s => if accept b then [s] else []

def simpleRests (token : GlobToken) (s : List UInt8) : List (List UInt8) :=
  match token with
  | .literal c => ((String.utf8EncodeChar c).isPrefixOf? s).toList
  | .one => restsAfterOne (· != separator) s
  | .run => restsAfterRun (· != separator) s
  | .leadingFolders => s :: restsBehindSeparators s
  | .innerFolders => if s.head? = some separator then restsBehindSeparators s else []
  | .everythingBelow =>
    (restsAfterOne (· == separator) s).flatMap (restsAfterRun fun _ => true)
  | .oneOf negated ranges => restsAfterOne (fun b => inRanges ranges b != negated) s
  | .choice _ => []

mutual

def restsAfter (texts : List (List UInt8)) : GlobToken → List (List UInt8)
  | .choice branches =>
    if noneAsks branches then texts else restsAfterAny texts branches
  | token => texts.flatMap (simpleRests token)

def restsAfterAll (texts : List (List UInt8)) : List GlobToken → List (List UInt8)
  | [] => texts
  | token :: rest => restsAfterAll (restsAfter texts token).eraseDups rest

/-- The rests that any of the branches leaves of any of the texts; branches that ask for nothing
count for nothing. -/
def restsAfterAny (texts : List (List UInt8)) : List (List GlobToken) → List (List UInt8)
  | [] => []
  | branch :: rest =>
    (if allAskNothing branch then [] else restsAfterAll texts branch)
      ++ restsAfterAny texts rest

end

/-- Whether tokens match a path. Folders with nothing behind them match every path. -/
def matchesPath (tokens : List GlobToken) (path : List Char) : Bool :=
  match tokens with
  | [.leadingFolders] => true
  | _ => (restsAfterAll [utf8Bytes path] tokens).contains []

def patternMatches (pattern : String) (path : List Char) : Bool :=
  match read pattern with
  | .ok tokens => matchesPath tokens path
  | .error _ => false

end Glob

end ScenarioAtlas
