import CamelLint.Config.Load
import CamelLint.Rule.NamingPattern

/-! Sessions: a host program's dealings with the library. A session has a
configuration, a rule and a sink. A step that fails leaves them as they are, and a
rule that is built does not follow later changes of the configuration. -/

namespace CamelLint

structure Session (Location : Type) where
  config : Config
  rule : Rule.NamingPattern
  sink : Sink Location

inductive SessionError where
  | config (cause : ConfigError)
  | noModule
  deriving DecidableEq, Repr

namespace SessionError

def message : SessionError → String
  | config cause => cause.message
  | noModule => "no module to set a property on"

end SessionError

namespace Session

variable {Location : Type}

inductive Step (Location : Type) where
  | load (format : Format) (source : String)
  | clear
  | addModule (name : String)
  | setProperty (key value : String)
  | module (name : String)
  | propertiesFor (name : String)
  | sameAs (format : Format) (source : String)
  | buildRule
  | defaultRule
  | check (d : Declaration Location)
  | report (d : Declaration Location)
  | drain

inductive Answer (Location : Type) where
  | config (c : Config)
  | module (m : Option Module)
  | properties (p : Entries String)
  | equal (b : Bool)
  | rule (r : Rule.NamingPattern)
  | checked (finding : Option (Finding Location)) (event : Option Rule.LogEvent)
  | reported (sinkSize : Nat) (event : Option Rule.LogEvent)
  | findings (sink : Sink Location)
  | failed (e : SessionError)

def start : Session Location := ⟨.empty, .ofMetadata .namingPattern, []⟩

def withConfig (s : Session Location) (c : Config) : Session Location × Answer Location :=
  ({ s with config := c }, .config c)

def withRule (s : Session Location) (r : Rule.NamingPattern) :
    Session Location × Answer Location :=
  ({ s with rule := r }, .rule r)

def step (s : Session Location) : Step Location → Session Location × Answer Location
  | .load format source =>
    match Config.parse format source with
    | .ok c => s.withConfig c
    | .error e => (s, .failed (.config e))
  | .clear => s.withConfig .empty
  | .addModule name => s.withConfig (s.config.addModule name)
  | .setProperty key value =>
    match s.config.setProperty? key value with
    | some c => s.withConfig c
    | none => (s, .failed .noModule)
  | .module name => (s, .module (s.config.module? name))
  | .propertiesFor name => (s, .properties (s.config.propertiesFor name))
  | .sameAs format source =>
    match Config.parse format source with
    | .ok c => (s, .equal (s.config = c))
    | .error e => (s, .failed (.config e))
  | .buildRule =>
    s.withRule (.ofConfig .namingPattern (s.config.propertiesFor Rule.NamingPattern.id))
  | .defaultRule => s.withRule (.ofMetadata .namingPattern)
  | .check d => (s, .checked (s.rule.check d) (s.rule.event d))
  | .report d =>
    let sink := s.rule.report s.sink d
    ({ s with sink }, .reported sink.length (s.rule.event d))
  | .drain => ({ s with sink := [] }, .findings s.sink)

/-- The answers to a list of steps. -/
def run (s : Session Location) : List (Step Location) → List (Answer Location)
  | [] => []
  | a :: r =>
    let (s, answer) := s.step a
    answer :: s.run r

end Session

end CamelLint
