import CamelLint.Category
import CamelLint.Declaration
import CamelLint.Priority
import CamelLint.Severity

/-! What is known of a rule apart from its configuration, and the registry of the
rules that come with the library. -/

namespace CamelLint.Rule

structure Metadata where
  id : String
  title : String
  explanation : String
  category : Category
  severity : Severity
  priority : Priority
  scope : List DeclarationKind
  deriving DecidableEq, Repr

namespace Metadata

def namingPattern : Metadata where
  id := "NamingPattern"
  title := "Class naming need to be done using CamelCase"
  explanation := "Write class name using CamelCase.\nSee examples on: https://google.github.io/styleguide/javaguide.html#s5.3-camel-case"
  category := .correctness
  severity := .warning
  priority := ⟨6⟩
  scope := DeclarationKind.all

end Metadata

structure Registry where
  rules : List Metadata

namespace Registry

def builtin : Registry := ⟨[Metadata.namingPattern]⟩

def get? (r : Registry) (id : String) : Option Metadata := r.rules.find? (·.id = id)

def ids (r : Registry) : List String := r.rules.map (·.id)

def size (r : Registry) : Nat := r.rules.length

def isEmpty (r : Registry) : Bool := r.rules.isEmpty

end Registry

end CamelLint.Rule
