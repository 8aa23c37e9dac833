import ScenarioAtlas.Json.Value

/-!
# Reading JSON

A reader for the whole of JSON that takes nothing else: no comments, no commas at the end, no
control characters in strings, and no half of a surrogate pair. Arrays and objects may be nested, up
to a depth, and a number is no larger than the largest float.
-/

namespace ScenarioAtlas.Json

set_option autoImplicit false

def isSpace (c : Char) : Bool := c == ' ' || c == '\n' || c == '\t' || c == '\r'

def skipSpace (s : List Char) : List Char := s.dropWhile isSpace

def hexDigit? (c : Char) : Option Nat :=
  if '0' ≤ c ∧ c ≤ '9' then some (c.toNat - '0'.toNat)
  else if 'a' ≤ c ∧ c ≤ 'f' then some (c.toNat - 'a'.toNat + 10)
  else if 'A' ≤ c ∧ c ≤ 'F' then some (c.toNat - 'A'.toNat + 10)
  else none

def hexValue? (digits : List Char) : Option Nat :=
  digits.foldlM (fun n c => (hexDigit? c).map (16 * n + ·)) 0

def escaped? : Char → Option Char
  | '"' => some '"'
  | '\\' => some '\\'
  | '/' => some '/'
  | 'b' => some '\x08'
  | 'f' => some '\x0c'
  | 'n' => some '\n'
  | 'r' => some '\r'
  | 't' => some '\t'
  | _ => none

/-- What a code unit adds to a string, given the first half of a surrogate pair if one came last:
the string with the character it completes, or the half that it is. -/
def addUnit? (high : Option Nat) (unit : Nat) (done : List Char) :
    Option (Option Nat × List Char) :=
  match high with
  | some first =>
    if 0xdc00 ≤ unit ∧ unit ≤ 0xdfff then
      some (none, Char.ofNat (0x10000 + (first - 0xd800) * 0x400 + (unit - 0xdc00)) :: done)
    else none
  | none =>
    if 0xd800 ≤ unit ∧ unit ≤ 0xdbff then some (some unit, done)
    else if 0xdc00 ≤ unit ∧ unit ≤ 0xdfff then none
    else some (none, Char.ofNat unit :: done)

/-- Reads a string behind its opening quote: `done` is what was read so far, last first, and `high`
the half of a surrogate pair that came last. -/
def readString? (high : Option Nat) (done : List Char) : List Char → Option (String × List Char)
  | [] => none
  | '\\' :: 'u' :: a :: b :: c :: d :: s => do
    let (high, done) ← addUnit? high (← hexValue? [a, b, c, d]) done
    readString? high done s
  | '\\' :: c :: s =>
    match high, escaped? c with
    | none, some c => readString? none (c :: done) s
    | _, _ => none
  | c :: s =>
    if high.isSome then none
    else if c = '"' then some (String.ofList done.reverse, s)
    else if c = '\\' ∨ c.toNat < 0x20 then none
    else readString? none (c :: done) s

/-- The digits at the start of a text, of which there has to be one. -/
def readDigits? (s : List Char) : Option (List Char × List Char) :=
  let digits := s.takeWhile Char.isDigit
  if digits.isEmpty then none else some (digits, s.dropWhile Char.isDigit)

/-- The whole part of a number, which has no leading zero. -/
def readWhole? (s : List Char) : Option (List Char × List Char) := do
  let (digits, rest) ← readDigits? s
  if digits.head? = some '0' ∧ digits.length ≠ 1 then none else return (digits, rest)

def readFraction? : List Char → Option (List Char × List Char)
  | '.' :: s => do
    let (digits, rest) ← readDigits? s
    return ('.' :: digits, rest)
  | s => some ([], s)

def readExponent? : List Char → Option (List Char × List Char)
  | [] => some ([], [])
  | c :: s =>
    if c = 'e' ∨ c = 'E' then
      let (sign, s) := match s with
        | '+' :: s => (['+'], s)
        | '-' :: s => (['-'], s)
        | s => ([], s)
      (readDigits? s).map fun (digits, rest) => (c :: sign ++ digits, rest)
    else some ([], c :: s)

def exponentValue : List Char → Int
  | [] => 0
  | _ :: '+' :: digits => Text.digitsValue digits
  | _ :: '-' :: digits => -Text.digitsValue digits
  | _ :: digits => Text.digitsValue digits

/-- Reads a number. One that is too large for a float is refused. -/
def readNumber? (s : List Char) : Option (Json × List Char) := do
  let (sign, s) := match s with
    | '-' :: s => (['-'], s)
    | s => ([], s)
  let (whole, s) ← readWhole? s
  let (fraction, s) ← readFraction? s
  let (exponent, s) ← readExponent? s
  let mantissa := Text.digitsValue (whole ++ fraction.drop 1)
  if Text.overflows mantissa (exponentValue exponent - (fraction.length - 1 : Nat)) then none
  else return (.number (String.ofList (sign ++ whole ++ fraction ++ exponent)), s)

mutual

/-- Reads a value with fewer than `depth` arrays and objects inside each other; `fuel` bounds how
deep the calls go. -/
def readValue? (depth fuel : Nat) (s : List Char) : Option (Json × List Char) :=
  match fuel with
  | 0 => none
  | fuel + 1 =>
    match skipSpace s with
    | 'n' :: 'u' :: 'l' :: 'l' :: s => some (.null, s)
    | 't' :: 'r' :: 'u' :: 'e' :: s => some (.bool true, s)
    | 'f' :: 'a' :: 'l' :: 's' :: 'e' :: s => some (.bool false, s)
    | '"' :: s => (readString? none [] s).map fun (text, s) => (.string text, s)
    | '[' :: s =>
      if depth ≤ 1 then none
      else
        match skipSpace s with
        | ']' :: s => some (.array [], s)
        | s => (readElements? (depth - 1) fuel s).map fun (elements, s) => (.array elements, s)
    | '\x7b' :: s =>
      if depth ≤ 1 then none
      else
        match skipSpace s with
        | '\x7d' :: s => some (.object [], s)
        | s =>
          (readMembers? (depth - 1) fuel s).map fun (members, s) =>
            (.object (lastMembers members), s)
    | s => readNumber? s

/-- Reads the elements of an array, of which there is one, and the bracket behind them. -/
def readElements? (depth fuel : Nat) (s : List Char) : Option (List Json × List Char) :=
  match fuel with
  | 0 => none
  | fuel + 1 => do
    let (element, s) ← readValue? depth fuel s
    match skipSpace s with
    | ',' :: s =>
      let (elements, s) ← readElements? depth fuel s
      return (element :: elements, s)
    | ']' :: s => return ([element], s)
    | _ => none

/-- Reads the members of an object, of which there is one, and the brace behind them. -/
def readMembers? (depth fuel : Nat) (s : List Char) : Option (List (String × Json) × List Char) :=
  match fuel with
  | 0 => none
  | fuel + 1 =>
    match skipSpace s with
    | '"' :: s => do
      let (name, s) ← readString? none [] s
      match skipSpace s with
      | ':' :: s =>
        let (value, s) ← readValue? depth fuel s
        match skipSpace s with
        | ',' :: s =>
          let (members, s) ← readMembers? depth fuel s
          return ((name, value) :: members, s)
        | '\x7d' :: s => return ([(name, value)], s)
        | _ => none
      | _ => none
    | _ => none

end

def depthBound : Nat := 128

def whole? {α : Type} : α × List Char → Option α
  | (value, rest) => if (skipSpace rest).isEmpty then some value else none

def read? (text : String) : Option Json :=
  let s := text.toList
  (readValue? depthBound (2 * s.length + 2) s).bind whole?

/-- The members of the object that a text writes, all that are written and in their order: a name
may come again. -/
def readMembersOf? (text : String) : Option (List (String × Json)) :=
  match skipSpace text.toList with
  | '\x7b' :: s =>
    match skipSpace s with
    | '\x7d' :: s => whole? ([], s)
    | s => (readMembers? (depthBound - 1) (2 * s.length + 2) s).bind whole?
  | _ => none

end ScenarioAtlas.Json
