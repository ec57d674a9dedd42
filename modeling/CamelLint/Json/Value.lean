import CamelLint.Decimal.Shortest
import CamelLint.Entries

/-! JSON values. The members of an object stand in ascending order of their names,
each name once; an integer is one of 64 bits, signed or not, and every other
number is a binary floating point number. -/

namespace CamelLint

inductive Json where
  | null
  | bool (b : Bool)
  | integer (n : Int)
  | float (x : Decimal.Binary64)
  | string (s : String)
  | array (items : List Json)
  | object (members : List (String × Json))
  deriving Repr, Inhabited

namespace Json

/-- Numbers have a point or an exponent from 10^16 on and below 10^-5, and a tie between two
shortest forms goes to the even digit. -/
def layout : Decimal.Layout := ⟨false, some (-4, 16)⟩

mutual

/-- Equality of values, where the two floating point zeros are equal. -/
def same : Json → Json → Bool
  | null, null => true
  | bool a, bool b => a = b
  | integer a, integer b => a = b
  | float a, float b => a.same b
  | string a, string b => a = b
  | array a, array b => sameItems a b
  | object a, object b => sameMembers a b
  | _, _ => false

def sameItems : List Json → List Json → Bool
  | [], [] => true
  | a :: r, b :: s => same a b && sameItems r s
  | _, _ => false

def sameMembers : List (String × Json) → List (String × Json) → Bool
  | [], [] => true
  | (k, a) :: r, (l, b) :: s => k = l && same a b && sameMembers r s
  | _, _ => false

end

def member? (name : String) : Json → Option Json
  | object members => Entries.get? name members
  | _ => none

end Json

end CamelLint
