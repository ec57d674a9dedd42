import CamelLint.Json.Value

/-! JSON text of a value, on one line. -/

namespace CamelLint.Json

def hexDigit (n : Nat) : Char := (Nat.digitChar (n % 16))

def escapedChar (c : Char) : List Char :=
  if c = '"' then ['\\', '"']
  else if c = '\\' then ['\\', '\\']
  else if c = '\n' then ['\\', 'n']
  else if c.toNat < 0x20 ∨ c.toNat = 0x7F then
    ['\\', 'u', '0', '0', hexDigit (c.toNat / 16), hexDigit c.toNat]
  else [c]

def renderString (s : String) : String :=
  String.ofList ('"' :: (s.toList.flatMap escapedChar ++ ['"']))

mutual

def render : Json → String
  | null => "null"
  | bool b => if b then "true" else "false"
  | integer n => toString n
  | float x => x.display layout
  | string s => renderString s
  | array items => "[" ++ ",".intercalate (renderItems items) ++ "]"
  | object members => "\x7b" ++ ",".intercalate (renderMembers members) ++ "\x7d"

def renderItems : List Json → List String
  | [] => []
  | a :: r => render a :: renderItems r

def renderMembers : List (String × Json) → List String
  | [] => []
  | (k, a) :: r => (renderString k ++ ":" ++ render a) :: renderMembers r

end

end CamelLint.Json
