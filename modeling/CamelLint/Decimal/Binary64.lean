/-! Binary floating point numbers of 64 bits, in exact integer arithmetic: a finite
number is `mantissa * 2 ^ exponent` with a mantissa below `2 ^ 53` and an exponent
from -1074 to 971. A decimal number is read as the nearest of them, a tie going
to the even mantissa. -/

namespace CamelLint.Decimal

inductive Binary64 where
  | nan
  | infinity (negative : Bool)
  | finite (negative : Bool) (mantissa : Nat) (exponent : Int)
  deriving DecidableEq, Repr

namespace Binary64

def isInfinite : Binary64 → Bool
  | infinity _ => true
  | _ => false

/-- Equality of numbers: the two zeros are equal, and a number that is none differs
from itself. -/
def same : Binary64 → Binary64 → Bool
  | finite _ 0 _, finite _ 0 _ => true
  | nan, nan => false
  | a, b => a = b

/-- The quotient rounded to the nearest integer, a tie going to the even one. -/
def roundDiv (num den : Nat) : Nat :=
  let q := num / den
  let r := num % den
  if 2 * r < den then q else if den < 2 * r then q + 1 else if q % 2 = 0 then q else q + 1

/-- The powers of two and of ten. -/
def twoTo (n : Nat) : Nat := Nat.pow 2 n

def tenTo (n : Nat) : Nat := Nat.pow 10 n

/-- The power of two that leaves a quotient between `2 ^ 52` and `2 ^ 53`, or the least. -/
def exponentOf (num den : Nat) : Int :=
  let guess : Int := (num.log2 : Int) - den.log2
  let fits : Bool :=
    if 0 ≤ guess then den * twoTo guess.toNat ≤ num else den ≤ num * twoTo (-guess).toNat
  let exponent := (if fits then guess else guess - 1) - 52
  if exponent < -1074 then -1074 else exponent

/-- The number nearest to a positive quotient. -/
def ofQuotient (negative : Bool) (num den : Nat) : Binary64 :=
  let e := exponentOf num den
  let m := if 0 ≤ e then roundDiv num (den * twoTo e.toNat) else roundDiv (num * twoTo (-e).toNat) den
  let (m, e) := if m = twoTo 53 then (twoTo 52, e + 1) else (m, e)
  if 971 < e then infinity negative
  else if m = 0 then finite negative 0 (-1074)
  else finite negative m e

/-- The number nearest to `digits * 10 ^ scale`. -/
def ofDecimal (negative : Bool) (digits : Nat) (scale : Int) : Binary64 :=
  let size : Int := (Nat.toDigits 10 digits).length
  if digits = 0 ∨ size + scale < -330 then finite negative 0 (-1074)
  else if 310 < size + scale then infinity negative
  else if 0 ≤ scale then ofQuotient negative (digits * tenTo scale.toNat) 1
  else ofQuotient negative digits (tenTo (-scale).toNat)

end Binary64

end CamelLint.Decimal
