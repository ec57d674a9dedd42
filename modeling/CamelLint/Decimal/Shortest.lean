import CamelLint.Decimal.Binary64

/-! The shortest decimal text of a binary number: of the decimals that read back as
the number, one with the fewest digits, and of these the nearest to it. A format
says which way a tie goes and where positional writing gives way to an exponent. -/

namespace CamelLint.Decimal

/-- The format's decisions. A number below one in absolute value has a point position of
zero or less; positions outside the bounds, where there are any, get an exponent. -/
structure Layout where
  tieUp : Bool
  positions : Option (Int × Int)

namespace Binary64

/-- The multiple of `10 ^ place` nearest to `mantissa * 2 ^ exponent`, if it reads back as that
number. Both ends of the interval of decimals that read back belong to it when the
mantissa is even. -/
def nearestOn? (tieUp : Bool) (mantissa : Nat) (exponent place : Int) : Option Nat :=
  let unit := tenTo place.toNat * twoTo (2 - exponent).toNat
  let scale := twoTo (exponent - 2).toNat * tenTo (-place).toNat
  let value := 4 * mantissa * scale
  let low := (4 * mantissa - if mantissa = twoTo 52 ∧ -1074 < exponent then 1 else 2) * scale
  let high := (4 * mantissa + 2) * scale
  let readsBack (d : Nat) : Bool :=
    d ≠ 0 && if mantissa % 2 = 0 then low ≤ d * unit && d * unit ≤ high
      else low < d * unit && d * unit < high
  let d := value / unit
  let below := value - d * unit
  let above := (d + 1) * unit - value
  let upFirst := above < below || (above = below && (tieUp || d % 2 = 1))
  match readsBack d, readsBack (d + 1) with
  | true, true => some (if upFirst then d + 1 else d)
  | true, false => some d
  | false, true => some (d + 1)
  | false, false => none

/-- Digits and place of the shortest decimal of `mantissa * 2 ^ exponent`. -/
def shortest (tieUp : Bool) (mantissa : Nat) (exponent : Int) : Nat × Int :=
  let search := (List.range 660).findSome? fun (i : Nat) =>
    let place : Int := 310 - (i : Int)
    (nearestOn? tieUp mantissa exponent place).map (·, place)
  search.getD (0, 0)

/-- The digits with the point after `point` of them, and at least one digit on each side. -/
def positional (digits : List Char) (point : Int) : List Char :=
  if point ≤ 0 then '0' :: '.' :: (List.replicate (-point).toNat '0' ++ digits)
  else
    let whole := digits.take point.toNat
    let fraction := digits.drop point.toNat
    whole ++ List.replicate (point.toNat - digits.length) '0' ++
      '.' :: (if fraction.isEmpty then ['0'] else fraction)

/-- One digit before the point, the others after it, and an exponent with its sign. -/
def scientific (digits : List Char) (point : Int) : List Char :=
  let sign := if 1 ≤ point then '+' else '-'
  let exponent := sign :: Nat.toDigits 10 (point - 1).natAbs
  match digits with
  | [d] => d :: 'e' :: exponent
  | d :: r => d :: '.' :: (r ++ 'e' :: exponent)
  | [] => []

def layOut (layout : Layout) (digits : List Char) (point : Int) : List Char :=
  match layout.positions with
  | none => positional digits point
  | some (low, high) =>
    if low ≤ point ∧ point ≤ high then positional digits point else scientific digits point

def display (layout : Layout) : Binary64 → String
  | nan => "NaN"
  | infinity negative => if negative then "-inf" else "inf"
  | finite negative mantissa exponent =>
    let text :=
      if mantissa = 0 then ['0', '.', '0']
      else
        let (d, place) := shortest layout.tieUp mantissa exponent
        let digits := Nat.toDigits 10 d
        layOut layout digits (place + digits.length)
    String.ofList (if negative then '-' :: text else text)

end Binary64

end CamelLint.Decimal
