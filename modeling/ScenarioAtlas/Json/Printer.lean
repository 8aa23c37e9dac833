import ScenarioAtlas.Json.Value
import ScenarioAtlas.Text.Blank

/-!
# Writing JSON

JSON texts in two layouts: on one line without any space, and with each element and member on a line
of its own, two spaces further in than what it belongs to.
-/

namespace ScenarioAtlas.Json

set_option autoImplicit false

def hexDigit (n : Nat) : Char := Nat.digitChar n

def escape (c : Char) : List Char :=
  match c with
  | '"' => ['\\', '"']
  | '\\' => ['\\', '\\']
  | '\x08' => ['\\', 'b']
  | '\x0c' => ['\\', 'f']
  | '\n' => ['\\', 'n']
  | '\r' => ['\\', 'r']
  | '\t' => ['\\', 't']
  | c =>
    if c.toNat < 0x20 then
      ['\\', 'u', '0', '0', hexDigit (c.toNat / 16), hexDigit (c.toNat % 16)]
    else [c]

def quote (text : String) : String := String.ofList ('"' :: text.toList.flatMap escape ++ ['"'])

mutual

def compact : Json → String
  | null => "null"
  | bool value => if value then "true" else "false"
  | number literal => literal
  | string value => quote value
  | array elements => "[" ++ ",".intercalate (compactElements elements) ++ "]"
  | object members => "\x7b" ++ ",".intercalate (compactMembers members) ++ "\x7d"

def compactElements : List Json → List String
  | [] => []
  | element :: rest => compact element :: compactElements rest

def compactMembers : List (String × Json) → List String
  | [] => []
  | (name, value) :: rest => (quote name ++ ":" ++ compact value) :: compactMembers rest

end

def block (opening closing : String) (depth : Nat) (lines : List String) : String :=
  if lines.isEmpty then opening ++ closing
  else
    opening ++ "\n" ++ ",\n".intercalate (lines.map (Text.spaces (2 * (depth + 1)) ++ ·)) ++ "\n"
      ++ Text.spaces (2 * depth) ++ closing

mutual

/-- A value over several lines, of which all but the first are `depth` steps in. -/
def prettyAt (depth : Nat) : Json → String
  | null => "null"
  | bool value => if value then "true" else "false"
  | number literal => literal
  | string value => quote value
  | array elements => block "[" "]" depth (prettyElements (depth + 1) elements)
  | object members => block "\x7b" "\x7d" depth (prettyMembers (depth + 1) members)

def prettyElements (depth : Nat) : List Json → List String
  | [] => []
  | element :: rest => prettyAt depth element :: prettyElements depth rest

def prettyMembers (depth : Nat) : List (String × Json) → List String
  | [] => []
  | (name, value) :: rest =>
    (quote name ++ ": " ++ prettyAt depth value) :: prettyMembers depth rest

end

def pretty (value : Json) : String := prettyAt 0 value

end ScenarioAtlas.Json
