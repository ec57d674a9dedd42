import CamelLint.Text.Digits

/-! References: the predefined entities and the references to characters by number.
A reference to anything else is unknown. -/

namespace CamelLint.Xml

open Text (digitValue? ofDigits)

/-- The character with a code point, if it is one that a reference may name. -/
def charOfCode? (n : Nat) : Option Char :=
  if h : n.isValidChar ∧ n ≠ 0 then some (Char.ofNatAux n h.1) else none

/-- The number that a nonempty list of digits writes. -/
def number? (base : Nat) (digits : List Char) : Option Nat :=
  if digits ≠ [] ∧ digits.all fun c => (digitValue? c).any (· < base) then
    some (ofDigits base digits)
  else none

/-- The character that a reference stands for, given what is between `&` and `;`. -/
def resolve? : List Char → Option Char
  | ['l', 't'] => some '<'
  | ['g', 't'] => some '>'
  | ['a', 'm', 'p'] => some '&'
  | ['a', 'p', 'o', 's'] => some '\''
  | ['q', 'u', 'o', 't'] => some '"'
  | '#' :: 'x' :: digits => (number? 16 digits).bind charOfCode?
  | '#' :: digits => (number? 10 digits).bind charOfCode?
  | _ => none

/-- A value with its references replaced. Inside a reference, of which the characters so far
are kept in reverse order, only `;` leads out. -/
def unescapeFrom : Option (List Char) → List Char → Option (List Char)
  | none, [] => some []
  | none, c :: r =>
    if c = '&' then unescapeFrom (some []) r else (unescapeFrom none r).map (c :: ·)
  | some _, [] => none
  | some name, c :: r =>
    if c = ';' then
      (resolve? name.reverse).bind fun d => (unescapeFrom none r).map (d :: ·)
    else if c = '&' then none
    else unescapeFrom (some (c :: name)) r

def unescape? (value : List Char) : Option (List Char) := unescapeFrom none value

end CamelLint.Xml
