import CamelLint.Severity

/-! Findings: what a rule has against a declaration, and the sinks that collect
them. -/

namespace CamelLint

/-- What is wrong: the rule that finds it, and its message. -/
structure FindingKind where
  name : String
  body : String
  deriving DecidableEq, Repr

structure Finding (Location : Type) where
  kind : FindingKind
  severity : Severity
  location : Location
  subject : String
  deriving DecidableEq, Repr

namespace Finding

variable {Location : Type}

def rule (f : Finding Location) : String := f.kind.name

def message (f : Finding Location) : String := f.kind.body

def display (f : Finding Location) : String :=
  String.join [f.rule, ": ", f.message, " ('", f.subject, "')"]

end Finding

/-- A sink keeps the findings in the order of their arrival. -/
abbrev Sink (Location : Type) := List (Finding Location)

namespace Sink

variable {Location : Type}

def accept (s : Sink Location) (f : Finding Location) : Sink Location := s ++ [f]

/-- The heaviest severity in the sink. -/
def worst? (s : Sink Location) : Option Severity := Severity.worst? (s.map (·.severity))

end Sink

end CamelLint
