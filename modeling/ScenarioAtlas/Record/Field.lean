import ScenarioAtlas.Json.Value

/-!
# Fields of records

Reading records from JSON. A record is an object with the fields by their names, of which unknown
ones are passed over, or an array with the fields in their order.
-/

namespace ScenarioAtlas

set_option autoImplicit false

structure Fields where
  given : List (String × Json)

namespace Json

def toBool? : Json → Option Bool
  | bool value => some value
  | _ => none

def toString? : Json → Option String
  | string value => some value
  | _ => none

def toList? {α : Type} (read : Json → Option α) : Json → Option (List α)
  | array elements => elements.mapM read
  | _ => none

def toStrings? : Json → Option (List String) := toList? toString?

def toOption? {α : Type} (read : Json → Option α) : Json → Option (Option α)
  | null => some none
  | value => (read value).map some

def fields? (names : List String) : Json → Option Fields
  | object members => some ⟨members⟩
  | array elements => if elements.length ≤ names.length then some ⟨names.zip elements⟩ else none
  | _ => none

/-- The choice that a text names; an object that gives it null names it too. -/
def toChoice? {α : Type} (choices : List α) (name : α → String) : Json → Option α
  | string text => choices.find? (name · = text)
  | object [(text, null)] => choices.find? (name · = text)
  | _ => none

end Json

namespace Fields

variable {α : Type}

/-- The value of a field that has to be given. -/
def required? (fields : Fields) (name : String) (read : Json → Option α) : Option α :=
  (fields.given.lookup name).bind read

def withDefault? (fields : Fields) (name : String) (read : Json → Option α) (default : α) :
    Option α :=
  match fields.given.lookup name with
  | some value => read value
  | none => some default

/-- The value of a field that may be left out or null. -/
def optional? (fields : Fields) (name : String) (read : Json → Option α) : Option (Option α) :=
  fields.withDefault? name (Json.toOption? read) none

end Fields

def Json.memberIf {α : Type} (name : String) (write : α → Json) : Option α → List (String × Json)
  | some value => [(name, write value)]
  | none => []

end ScenarioAtlas
