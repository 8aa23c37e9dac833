import ScenarioAtlas.Text.Digit

/-!
# JSON values

JSON data as a value. A number is kept as it was written, so that a whole number can be told from
one with a fraction or an exponent.
-/

namespace ScenarioAtlas

set_option autoImplicit false

/-- A JSON value; the members of an object have distinct names. -/
inductive Json where
  | null
  | bool (value : Bool)
  | number (literal : String)
  | string (value : String)
  | array (elements : List Json)
  | object (members : List (String × Json))

namespace Json

def member? (name : String) : Json → Option Json
  | object members => members.lookup name
  | _ => none

def ofNat (n : Nat) : Json := number (String.ofList (Text.writeNumber n))

/-- The value of a number that was written by digits alone, below the bound. -/
def toNat? : Json → Option Nat
  | number literal => Text.readDigits? literal.toList
  | _ => none

def ofString? : Option String → Json
  | some text => string text
  | none => null

def ofNat? : Option Nat → Json
  | some n => ofNat n
  | none => null

def ofStrings (texts : List String) : Json := array (texts.map string)

/-- Sets a member; a name that comes again replaces the one before it. -/
def setMember {α : Type} (name : String) (value : α) : List (String × α) → List (String × α)
  | [] => [(name, value)]
  | (other, old) :: rest =>
    if other = name then (name, value) :: rest else (other, old) :: setMember name value rest

/-- Members with distinct names: of those with one name the last counts. -/
def lastMembers {α : Type} (members : List (String × α)) : List (String × α) :=
  members.foldl (fun done (name, value) => setMember name value done) []

end Json

end ScenarioAtlas
