/-! How much a finding weighs. Severities are ordered from informational to fatal. -/

namespace CamelLint

inductive Severity where
  | informational
  | warning
  | error
  | fatal
  deriving DecidableEq, Repr

namespace Severity

def all : List Severity := [informational, warning, error, fatal]

def rank : Severity → Nat
  | informational => 0
  | warning => 1
  | error => 2
  | fatal => 3

theorem rank_injective {a b : Severity} (h : a.rank = b.rank) : a = b := by
  cases a <;> cases b <;> simp_all [rank]

protected def compare (a b : Severity) : Ordering := Ord.compare a.rank b.rank

/-- The heavier of two severities. -/
def worse (a b : Severity) : Severity := if a.rank ≤ b.rank then b else a

/-- The heaviest severity of a list, if it has one. -/
def worst? : List Severity → Option Severity
  | [] => none
  | a :: r => some (r.foldl worse a)

/-- The word shown to readers. -/
def display : Severity → String
  | informational => "information"
  | warning => "warning"
  | error => "error"
  | fatal => "fatal"

/-- The word used in data. -/
def label : Severity → String
  | informational => "Informational"
  | warning => "Warning"
  | error => "Error"
  | fatal => "Fatal"

theorem label_injective {a b : Severity} (h : a.label = b.label) : a = b := by
  cases a <;> cases b <;> simp_all [label]

def ofLabel? (word : String) : Option Severity := all.find? (·.label = word)

end Severity

end CamelLint
