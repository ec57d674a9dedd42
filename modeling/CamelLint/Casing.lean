import CamelLint.Text.Uppercase

/-! The casing test. A name is rejected when two neighbouring characters are both
uppercase; the test is one pass that carries whether the last character was
uppercase. -/

namespace CamelLint

inductive Verdict where
  | accepted
  | rejected
  deriving DecidableEq, Repr

namespace Verdict

def isAccepted : Verdict → Bool
  | accepted => true
  | rejected => false

def isRejected : Verdict → Bool
  | accepted => false
  | rejected => true

@[simp] theorem isRejected_eq_not (v : Verdict) : v.isRejected = !v.isAccepted := by
  cases v <;> rfl

end Verdict

namespace Casing

open Text (isUppercase)

/-- Classifies the rest of a name after a character that was uppercase or not. -/
def classifyAfter (wasUpper : Bool) : List Char → Verdict
  | [] => .accepted
  | c :: r =>
    if wasUpper && isUppercase c then .rejected else classifyAfter (isUppercase c) r

def classify (name : String) : Verdict := classifyAfter false name.toList

def isUpperCamelCase (name : String) : Bool := (classify name).isAccepted

/-- The code points from `first` to `last` that, put between `before` and `after`, make a
rejected name, as maximal runs of neighbours in ascending order. -/
def rejectedRuns (before after : String) (first last : Nat) : List (Nat × Nat) :=
  let codes := (List.range (min last 0x10FFFF + 1 - first)).map (first + ·)
  codes.foldr (fun n runs =>
    if h : n.isValidChar then
      match classify (before ++ String.singleton (Char.ofNatAux n h) ++ after), runs with
      | .accepted, _ => runs
      | .rejected, [] => [(n, n)]
      | .rejected, (a, b) :: rest =>
        if a = n + 1 then (n, b) :: rest else (n, n) :: (a, b) :: rest
    else runs) []

end Casing

end CamelLint
