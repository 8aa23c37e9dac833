import ScenarioAtlas.Json.Reader
import ScenarioAtlas.Toml.Table

/-!
# Numbers and dates of TOML

Integers in four bases, floats, and dates and times. An integer fits into 64 bits with its sign, a
float is below the largest one, and a date is one of the calendar.
-/

namespace ScenarioAtlas.Toml

set_option autoImplicit false

/-- Reads digits that a single underscore may part; the underscores are left out. -/
def readDigits (accept : Char → Bool) : List Char → List Char × List Char
  | [] => ([], [])
  | c :: '_' :: d :: s =>
    if accept c then
      if accept d then
        let (digits, rest) := readDigits accept (d :: s)
        (c :: digits, rest)
      else ([c], '_' :: d :: s)
    else ([], c :: '_' :: d :: s)
  | c :: s =>
    if accept c then
      let (digits, rest) := readDigits accept s
      (c :: digits, rest)
    else ([], c :: s)

def readSomeDigits? (accept : Char → Bool) (s : List Char) : Option (List Char × List Char) :=
  match readDigits accept s with
  | ([], _) => none
  | read => some read

/-- Reads a sign, where there is one: whether it is a minus, and the rest. -/
def readSign : List Char → Bool × List Char
  | '+' :: s => (false, s)
  | '-' :: s => (true, s)
  | s => (false, s)

def readWhole? (s : List Char) : Option (List Char × List Char) :=
  match s with
  | '0' :: s => some (['0'], s)
  | _ => readSomeDigits? Char.isDigit s

def digitsIn (base : Nat) (digits : List Char) : Nat :=
  digits.foldl (fun n c => base * n + (Json.hexDigit? c).getD 0) 0

/-- The least magnitude that only a negative integer can have, `2 ^ 63`. -/
def integerBound : Nat := 9223372036854775808

def integer? (negative : Bool) (magnitude : Nat) : Option Toml :=
  if negative then if magnitude ≤ integerBound then some (.integer (-magnitude)) else none
  else if magnitude < integerBound then some (.integer magnitude)
  else none

def readBased? (base : Nat) (accept : Char → Bool) (s : List Char) :
    Option (Toml × List Char) := do
  let (digits, s) ← readSomeDigits? accept s
  return (← integer? false (digitsIn base digits), s)

def readInteger? : List Char → Option (Toml × List Char)
  | '0' :: 'x' :: s => readBased? 16 (fun c => (Json.hexDigit? c).isSome) s
  | '0' :: 'o' :: s => readBased? 8 (fun c => '0' ≤ c ∧ c ≤ '7') s
  | '0' :: 'b' :: s => readBased? 2 (fun c => c = '0' ∨ c = '1') s
  | s => do
    let (negative, s) := readSign s
    let (digits, s) ← readWhole? s
    return (← integer? negative (digitsIn 10 digits), s)

def readExponent? : List Char → Option (Int × List Char)
  | [] => none
  | c :: s =>
    if c = 'e' ∨ c = 'E' then do
      let (negative, s) := readSign s
      let (digits, s) ← readSomeDigits? Char.isDigit s
      let magnitude : Int := digitsIn 10 digits
      return (if negative then -magnitude else magnitude, s)
    else none

/-- Reads a float in digits, which has a fraction or an exponent. A positive one that is too large
is refused. -/
def readDecimal? (s : List Char) : Option (Toml × List Char) := do
  let (negative, s) := readSign s
  let (whole, s) ← readWhole? s
  let float := fun (digits : List Char) (exponent : Int) (s : List Char) =>
    if !negative && Text.overflows (digitsIn 10 digits) exponent then none else some (Toml.float, s)
  match s with
  | '.' :: s =>
    let (fraction, s) ← readSomeDigits? Char.isDigit s
    let (exponent, s) := (readExponent? s).getD (0, s)
    float (whole ++ fraction) (exponent - fraction.length) s
  | s =>
    let (exponent, s) ← readExponent? s
    float whole exponent s

def readNamedFloat? (s : List Char) : Option (Toml × List Char) :=
  match (readSign s).2 with
  | 'i' :: 'n' :: 'f' :: s => some (.float, s)
  | 'n' :: 'a' :: 'n' :: s => some (.float, s)
  | _ => none

def readTwo? : List Char → Option (Nat × List Char)
  | a :: b :: s =>
    if a.isDigit && b.isDigit then some (digitsIn 10 [a, b], s) else none
  | _ => none

def readBetween? (low high : Nat) (s : List Char) : Option (Nat × List Char) :=
  (readTwo? s).filter fun (n, _) => low ≤ n && n ≤ high

def daysIn (year month : Nat) : Nat :=
  if month = 2 then
    if year % 4 = 0 ∧ (year % 100 ≠ 0 ∨ year % 400 = 0) then 29 else 28
  else if month ∈ [4, 6, 9, 11] then 30
  else 31

def afterDate? (s : List Char) : Option (List Char) := do
  let (century, s) ← readTwo? s
  let (years, s) ← readTwo? s
  match s with
  | '-' :: s =>
    let (month, s) ← readBetween? 1 12 s
    match s with
    | '-' :: s => (readBetween? 1 (daysIn (100 * century + years) month) s).map Prod.snd
    | _ => none
  | _ => none

def afterFraction : List Char → List Char
  | '.' :: d :: s => if d.isDigit then s.dropWhile Char.isDigit else '.' :: d :: s
  | s => s

def afterTime? (s : List Char) : Option (List Char) := do
  let (_, s) ← readBetween? 0 23 s
  match s with
  | ':' :: s =>
    let (_, s) ← readBetween? 0 59 s
    match s with
    | ':' :: s => (readBetween? 0 60 s).map fun (_, s) => afterFraction s
    | _ => none
  | _ => none

def afterDistance? (s : List Char) : Option (List Char) := do
  let (_, s) ← readBetween? 0 23 s
  match s with
  | ':' :: s => (readBetween? 0 59 s).map Prod.snd
  | _ => none

def afterZone (s : List Char) : List Char :=
  match s with
  | 'Z' :: s | 'z' :: s => s
  | '+' :: rest | '-' :: rest => (afterDistance? rest).getD s
  | _ => s

def afterTimeOfDate (s : List Char) : List Char :=
  match s with
  | 'T' :: rest | 't' :: rest | ' ' :: rest => ((afterTime? rest).map afterZone).getD s
  | _ => s

def readDateTime? (s : List Char) : Option (Toml × List Char) :=
  match (afterDate? s).map afterTimeOfDate, afterTime? s with
  | some s, _ => some (.dateTime, s)
  | none, some s => some (.dateTime, s)
  | none, none => none

def readNumber? (s : List Char) : Option (Toml × List Char) :=
  (readDateTime? s).or ((readDecimal? s).or ((readNamedFloat? s).or (readInteger? s)))

end ScenarioAtlas.Toml
