import CamelLint.Casing
import CamelLint.Entries
import CamelLint.Finding
import CamelLint.Rule.Metadata

/-! The naming rule. It looks at the declarations of its kinds and reports the
names that the casing test rejects. A check ends in one of four ways, and both
the finding and the log event are read off the ending. -/

namespace CamelLint.Rule

/-- The rule, with the kinds of declaration that it looks at. -/
structure NamingPattern where
  metadata : Metadata
  kinds : List DeclarationKind
  deriving DecidableEq, Repr

/-- How the check of one declaration ends. -/
inductive Outcome where
  | otherKind (kind : DeclarationKind)
  | unnamed
  | conforming
  | violation (name : String)
  deriving DecidableEq, Repr

inductive LogLevel where
  | trace
  | debug
  deriving DecidableEq, Repr

/-- A line of the log: its level, and its fields in the order of their names. -/
structure LogEvent where
  level : LogLevel
  fields : List (String × String)
  deriving DecidableEq, Repr

namespace NamingPattern

def id : String := "NamingPattern"

def message : String := "Class naming must use CamelCase"

/-- The unconfigured rule looks at all kinds in its scope. -/
def ofMetadata (metadata : Metadata) : NamingPattern := ⟨metadata, metadata.scope⟩

/-- The kinds in scope that the property `tokens` names. -/
def configuredKinds (metadata : Metadata) (properties : Entries String) : List DeclarationKind :=
  match properties.get? "tokens" with
  | none => []
  | some tokens => (DeclarationKind.ofTokens tokens).filter (· ∈ metadata.scope)

/-- The configured rule. A configuration that names no kind in scope changes nothing. -/
def ofConfig (metadata : Metadata) (properties : Entries String) : NamingPattern :=
  match configuredKinds metadata properties with
  | [] => ofMetadata metadata
  | kinds => ⟨metadata, kinds⟩

variable {Location : Type}

def outcome (rule : NamingPattern) (d : Declaration Location) : Outcome :=
  if d.kind ∈ rule.kinds then
    match d.name with
    | none => .unnamed
    | some name =>
      match Casing.classify name with
      | .accepted => .conforming
      | .rejected => .violation name
  else .otherKind d.kind

def check (rule : NamingPattern) (d : Declaration Location) : Option (Finding Location) :=
  match rule.outcome d with
  | .violation name => some ⟨⟨id, message⟩, rule.metadata.severity, d.location, name⟩
  | _ => none

def event (rule : NamingPattern) (d : Declaration Location) : Option LogEvent :=
  match rule.outcome d with
  | .otherKind kind =>
    some ⟨.trace, [("kind", kind.token), ("message", "declaration kind not checked"), ("rule", id)]⟩
  | .unnamed => some ⟨.trace, [("message", "skipping declaration without a name"), ("rule", id)]⟩
  | .conforming => none
  | .violation name =>
    some ⟨.debug, [("message", "type name is not CamelCase"), ("name", name), ("rule", id)]⟩

/-- Checks a declaration and hands what is found to the sink. -/
def report (rule : NamingPattern) (sink : Sink Location) (d : Declaration Location) :
    Sink Location :=
  match rule.check d with
  | none => sink
  | some f => sink.accept f

/-- Reports the declarations one after another. -/
def reportAll (rule : NamingPattern) (sink : Sink Location) (ds : List (Declaration Location)) :
    Sink Location :=
  ds.foldl rule.report sink

end NamingPattern

end CamelLint.Rule
