import CamelLint.Text.Blank
import CamelLint.Text.Digits
import CamelLint.Toml.Value

/-! Scalars: the values that are written as words, that is numbers, booleans, dates and
times. A blank may part a date from a time, and tabs may stand in an integer behind its
first underscore, where not everything is looked at. -/

namespace CamelLint.Toml

open Text (isDigit isHexDigit digitValue? ofDigits)

/-! ### Integers -/

/-- The digits of a list in which single underscores may stand between digits. -/
def separated? (base : Nat) : List Char → Option (List Char)
  | [] => none
  | c :: r =>
    if !(digitValue? c).any (· < base) then none
    else
      match r with
      | [] => some [c]
      | '_' :: r => (separated? base r).map (c :: ·)
      | r => (separated? base r).map (c :: ·)

/-- Digits without a needless zero in front. -/
def withoutZeros? (digits : List Char) : Option (List Char) :=
  match digits with
  | '0' :: _ :: _ => none
  | digits => some digits

inductive Sign where
  | plus
  | minus
  deriving DecidableEq, Repr

/-- The sign of a number, if it has one, and what follows it. -/
def signed : List Char → Option Sign × List Char
  | '+' :: r => (some .plus, r)
  | '-' :: r => (some .minus, r)
  | s => (none, s)

def withSign (sign : Option Sign) (n : Nat) : Int :=
  match sign with
  | some .minus => -(n : Int)
  | _ => n

/-- An integer that a signed or an unsigned number of 128 bits holds. -/
def Value.ofInt (n : Int) : Value :=
  if -170141183460469231731687303715884105728 ≤ n ∧ n < 340282366920938463463374607431768211456 then
    .integer n
  else .badInteger

/-- An integer in a base other than ten, without digits no number. -/
def inBase? (base : Nat) (digits : List Char) : Option Value :=
  if digits = [] then some .badInteger
  else (separated? base digits).map fun d => .ofInt (ofDigits base d)

/-- Joins what stands between underscores. Each part begins with a digit, of whatever base,
and all but the last end with one; what else is in a part does not count yet. -/
def joined? : List (List Char) → Option (List Char)
  | [] => some []
  | part :: rest =>
    if part.head?.any isHexDigit ∧ (rest = [] ∨ part.getLast?.any isHexDigit) then
      (joined? rest).map (part ++ ·)
    else none

def isExponentMark (c : Char) : Bool := c = 'e' || c = 'E'

/-- Characters behind the first digits by which a word is no integer. -/
def isBeyondInteger (c : Char) : Bool := c = '.' || c = ' ' || isExponentMark c

/-- What a decimal integer without its sign writes when its underscores are left out. It is
all digits, or digits up to an underscore. -/
def decimalText? (s : List Char) : Option (List Char) :=
  let (digits, rest) := s.span isDigit
  match rest with
  | [] => if digits = [] then none else withoutZeros? digits
  | '_' :: r =>
    if digits = [] ∨ digits.head? = some '0' ∨ rest.any isBeyondInteger then none
    else (joined? (Text.segments '_' r)).map (digits ++ ·)
  | _ => none

def integer? (s : List Char) : Option Value :=
  match s with
  | '0' :: 'x' :: r => inBase? 16 r
  | '0' :: 'o' :: r => inBase? 8 r
  | '0' :: 'b' :: r => inBase? 2 r
  | s =>
    let (sign, r) := signed s
    (decimalText? r).map fun d =>
      if d.all isDigit then .ofInt (withSign sign (ofDigits 10 d)) else .badInteger

/-! ### Floating point numbers -/

/-- The exponent at the end of a number, with its mark, or nothing for zero. -/
def exponent? : List Char → Option Int
  | [] => some 0
  | _ :: r =>
    let (sign, r) := signed r
    (separated? 10 r).map fun d => withSign sign (ofDigits 10 d)

/-- A number with a fraction, an exponent or both. -/
def float? (s : List Char) : Option Value :=
  let (sign, r) := signed s
  let negative : Bool := sign = some .minus
  if r = "inf".toList then some (.float (.infinity negative))
  else if r = "nan".toList then some (.float .nan)
  else
    let (mantissa, scale) := r.span (!isExponentMark ·)
    let (whole, rest) := mantissa.span (· ≠ '.')
    let fraction? := match rest with
      | [] => if scale.isEmpty then none else some []
      | _ :: r => separated? 10 r
    do
      let whole ← (separated? 10 whole).bind withoutZeros?
      let fraction ← fraction?
      let scale ← exponent? scale
      match Decimal.Binary64.ofDecimal negative (ofDigits 10 (whole ++ fraction))
          (scale - fraction.length) with
      | .infinity _ => return .hugeFloat
      | x => return .float x

/-! ### Dates and times -/

def isLeapYear (year : Nat) : Bool := year % 4 = 0 && (year % 100 ≠ 0 || year % 400 = 0)

def daysIn (year month : Nat) : Nat :=
  match month with
  | 2 => if isLeapYear year then 29 else 28
  | 4 | 6 | 9 | 11 => 30
  | _ => 31

/-- Whether two digits write a number up to `most`. -/
def isTwoDigits (most : Nat) (a b : Char) : Bool :=
  isDigit a && isDigit b && ofDigits 10 [a, b] ≤ most

/-- A date, which is its own normal form, and what follows it. -/
def date? : List Char → Option (List Char × List Char)
  | y₁ :: y₂ :: y₃ :: y₄ :: '-' :: m₁ :: m₂ :: '-' :: d₁ :: d₂ :: r =>
    let year := ofDigits 10 [y₁, y₂, y₃, y₄]
    let month := ofDigits 10 [m₁, m₂]
    let day := ofDigits 10 [d₁, d₂]
    if [y₁, y₂, y₃, y₄, m₁, m₂, d₁, d₂].all isDigit && 1 ≤ month && month ≤ 12 && 1 ≤ day &&
        day ≤ daysIn year month then
      some ([y₁, y₂, y₃, y₄, '-', m₁, m₂, '-', d₁, d₂], r)
    else none
  | _ => none

/-- The fraction of a second in its normal form: at most nine digits, without zeros at the
end, and nothing if it is zero. -/
def normalFraction (digits : List Char) : List Char :=
  match ((digits.take 9).reverse.dropWhile (· = '0')).reverse with
  | [] => []
  | d => '.' :: d

/-- A time in its normal form, which has seconds also where they are left out, and what
follows it. -/
def time? : List Char → Option (List Char × List Char)
  | h₁ :: h₂ :: ':' :: m₁ :: m₂ :: r =>
    if isTwoDigits 23 h₁ h₂ && isTwoDigits 59 m₁ m₂ then
      let head := [h₁, h₂, ':', m₁, m₂]
      match r with
      | ':' :: s₁ :: s₂ :: r =>
        if isTwoDigits 60 s₁ s₂ then
          let head := head ++ [':', s₁, s₂]
          match r with
          | '.' :: r =>
            let (fraction, r) := r.span isDigit
            if fraction.isEmpty then none else some (head ++ normalFraction fraction, r)
          | r => some (head, r)
        else none
      | ':' :: _ => none
      | r => some (head ++ [':', '0', '0'], r)
    else none
  | _ => none

/-- The distance from universal time, in its normal form; it ends the text. -/
def offset? : List Char → Option (List Char)
  | [] => some []
  | ['Z'] | ['z'] => some ['Z']
  | [sign, h₁, h₂, ':', m₁, m₂] =>
    if (sign = '+' || sign = '-') && isTwoDigits 23 h₁ h₂ && isTwoDigits 59 m₁ m₂ then
      if [h₁, h₂, m₁, m₂].all (· = '0') then some "+00:00".toList
      else some [sign, h₁, h₂, ':', m₁, m₂]
    else none
  | _ => none

/-- A date, a time, or a date and a time with or without an offset, in its normal form. -/
def dateTime? (s : List Char) : Option (List Char) :=
  match date? s with
  | none =>
    match time? s with
    | some (time, []) => some time
    | _ => none
  | some (date, []) => some date
  | some (date, mark :: r) =>
    if mark = 'T' ∨ mark = 't' ∨ mark = ' ' then do
      let (time, r) ← time? r
      let offset ← offset? r
      return date ++ 'T' :: time ++ offset
    else none

/-! ### All of them -/

/-- The value that a word writes, or several with the blanks between them. -/
def scalar? (s : List Char) : Option Value :=
  if s = "true".toList then some (.boolean true)
  else if s = "false".toList then some (.boolean false)
  else
    match integer? s with
    | some n => some n
    | none =>
      match float? s with
      | some x => some x
      | none => (dateTime? s).map fun d => .date (String.ofList d)

end CamelLint.Toml
