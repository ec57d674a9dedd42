import CamelLint.Json.Value
import CamelLint.Text.Digits

/-! Reading JSON text. Each reader takes the characters that are left and gives its
result with what is left after it. Of two members with one name the later one
stays. -/

namespace CamelLint.Json

open Text (isDigit isHexDigit ofDigits)

def skipBlanks (s : List Char) : List Char :=
  s.dropWhile fun c => c = ' ' || c = '\t' || c = '\n' || c = '\r'

def readHex4? : List Char → Option (Nat × List Char)
  | a :: b :: c :: d :: r =>
    if [a, b, c, d].all isHexDigit then some (ofDigits 16 [a, b, c, d], r)
    else none
  | _ => none

/-- The character of a `\u` escape, which for one beyond U+FFFF takes two. -/
def readUnicode? (s : List Char) : Option (Char × List Char) := do
  let (n, r) ← readHex4? s
  if 0xD800 ≤ n ∧ n < 0xDC00 then
    match r with
    | '\\' :: 'u' :: r =>
      let (m, r) ← readHex4? r
      if 0xDC00 ≤ m ∧ m < 0xE000 then
        some (Char.ofNat (0x10000 + (n - 0xD800) * 0x400 + (m - 0xDC00)), r)
      else none
    | _ => none
  else if 0xDC00 ≤ n ∧ n < 0xE000 then none
  else some (Char.ofNat n, r)

def simpleEscape? : Char → Option Char
  | '"' => some '"'
  | '\\' => some '\\'
  | '/' => some '/'
  | 'b' => some '\x08'
  | 'f' => some '\x0c'
  | 'n' => some '\n'
  | 'r' => some '\r'
  | 't' => some '\t'
  | _ => none

/-- The rest of a string after its opening quote, with the characters read so far in
reverse order. -/
def readString? (fuel : Nat) (done : List Char) (s : List Char) : Option (String × List Char) :=
  match fuel, s with
  | 0, _ => none
  | _, [] => none
  | _, '"' :: r => some (String.ofList done.reverse, r)
  | fuel + 1, '\\' :: 'u' :: r => do
    let (c, r) ← readUnicode? r
    readString? fuel (c :: done) r
  | fuel + 1, '\\' :: e :: r => do
    let c ← simpleEscape? e
    readString? fuel (c :: done) r
  | fuel + 1, c :: r => readString? fuel (c :: done) r

/-- Sign, whole digits, fraction and exponent of a number. -/
def readNumber? (s : List Char) : Option (Json × List Char) :=
  let (negative, s) := match s with
    | '-' :: r => (true, r)
    | _ => (false, s)
  let (whole, s) := s.span isDigit
  let (fraction?, s) := match s with
    | '.' :: r => let (f, r) := r.span isDigit; (some f, r)
    | _ => (none, s)
  let (exponent?, s) : Option Int × List Char := match s with
    | e :: r =>
      if e = 'e' ∨ e = 'E' then
        let (down, r) := match r with
          | '-' :: r => (true, r)
          | '+' :: r => (false, r)
          | _ => (false, r)
        let (x, r) := r.span isDigit
        let n : Int := ofDigits 10 x
        (some (if down then -n else n), r)
      else (none, s)
    | [] => (none, s)
  if whole.isEmpty then none
  else
    let n : Nat := ofDigits 10 whole
    let i : Int := if negative then -n else n
    let isInteger := fraction?.isNone && exponent?.isNone && !(negative && n = 0) &&
      decide (-9223372036854775808 ≤ i ∧ i < 18446744073709551616)
    if isInteger then some (.integer i, s)
    else
      let fraction := fraction?.getD []
      let digits := ofDigits 10 (whole ++ fraction)
      some (.float (.ofDecimal negative digits (exponent?.getD 0 - fraction.length)), s)

mutual

/-- Reads a value. No string in it is longer than `size`. -/
def readValue? (size fuel : Nat) (s : List Char) : Option (Json × List Char) :=
  match fuel, skipBlanks s with
  | 0, _ => none
  | _ + 1, '"' :: r => (readString? size [] r).map fun (t, r) => (.string t, r)
  | fuel + 1, '[' :: r =>
    match skipBlanks r with
    | ']' :: r => some (.array [], r)
    | r => readItems? size fuel [] r
  | fuel + 1, '\x7b' :: r =>
    match skipBlanks r with
    | '\x7d' :: r => some (.object [], r)
    | r => readMembers? size fuel [] r
  | _ + 1, 'n' :: 'u' :: 'l' :: 'l' :: r => some (.null, r)
  | _ + 1, 't' :: 'r' :: 'u' :: 'e' :: r => some (.bool true, r)
  | _ + 1, 'f' :: 'a' :: 'l' :: 's' :: 'e' :: r => some (.bool false, r)
  | _ + 1, r => readNumber? r

def readItems? (size fuel : Nat) (done : List Json) (s : List Char) : Option (Json × List Char) :=
  match fuel with
  | 0 => none
  | fuel + 1 =>
    match readValue? size fuel s with
    | none => none
    | some (v, r) =>
      match skipBlanks r with
      | ',' :: r => readItems? size fuel (v :: done) r
      | ']' :: r => some (.array (v :: done).reverse, r)
      | _ => none

def readMembers? (size fuel : Nat) (done : List (String × Json)) (s : List Char) :
    Option (Json × List Char) :=
  match fuel, skipBlanks s with
  | fuel + 1, '"' :: r =>
    match readString? size [] r with
    | none => none
    | some (name, r) =>
      match skipBlanks r with
      | ':' :: r =>
        match readValue? size fuel r with
        | none => none
        | some (v, r) =>
          match skipBlanks r with
          | ',' :: r => readMembers? size fuel (Entries.insert name v done) r
          | '\x7d' :: r => some (.object (Entries.insert name v done), r)
          | _ => none
      | _ => none
  | _, _ => none

end

/-- The value that a text writes, with nothing but blanks around it. -/
def parse? (text : String) : Option Json :=
  let s := text.toList
  match readValue? (s.length + 1) (s.length + 1) s with
  | some (v, r) => if (skipBlanks r).isEmpty then some v else none
  | none => none

end CamelLint.Json
