import CamelLint.Decimal.Shortest
import CamelLint.Text.Quoted

/-! Misfits: the ways in which a well-formed document fails to have the shape that is
asked of it, and their wording. -/

namespace CamelLint

/-- What stands where something else is expected. -/
inductive Found where
  | null
  | boolean (b : Bool)
  | integer (n : Int)
  | float (x : Decimal.Binary64)
  | text (s : String)
  | sequence
  | map
  deriving DecidableEq, Repr

namespace Found

/-- Integers beyond 64 bits are shown with the width that holds them. -/
def integerSuffix (n : Int) : String :=
  if -9223372036854775808 ≤ n ∧ n < 18446744073709551616 then ""
  else if n < 170141183460469231731687303715884105728 then " as i128"
  else " as u128"

def display (layout : Decimal.Layout) : Found → String
  | null => "null"
  | boolean b => String.join ["boolean `", if b then "true" else "false", "`"]
  | integer n => String.join ["integer `", toString n, "`", integerSuffix n]
  | float x => String.join ["floating point `", x.display layout, "`"]
  | text s => String.join ["string ", Text.quoted s]
  | sequence => "sequence"
  | map => "map"

end Found

inductive Misfit where
  | wrongType (found : Found) (expected : String)
  | wrongValue (found : Found) (expected : String)
  | wrongLength (length : Nat) (expected : String)
  | unknownVariant (name : String) (variants : List String)
  | missingField (name : String)
  | duplicateField (name : String)
  | integerOverflow
  | floatOverflow
  deriving DecidableEq, Repr

namespace Misfit

def message (layout : Decimal.Layout) : Misfit → String
  | wrongType found expected =>
    String.join ["invalid type: ", found.display layout, ", expected ", expected]
  | wrongValue found expected =>
    String.join ["invalid value: ", found.display layout, ", expected ", expected]
  | wrongLength length expected =>
    String.join ["invalid length ", toString length, ", expected ", expected]
  | unknownVariant name variants =>
    String.join ["unknown variant `", name, "`, expected one of ",
      ", ".intercalate (variants.map fun v => String.join ["`", v, "`"])]
  | missingField name => String.join ["missing field `", name, "`"]
  | duplicateField name => String.join ["duplicate field `", name, "`"]
  | integerOverflow => "integer number overflowed"
  | floatOverflow => "floating-point number overflowed"

end Misfit

end CamelLint
