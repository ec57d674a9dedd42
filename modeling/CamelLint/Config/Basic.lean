import CamelLint.Entries

/-! Configurations: named modules in document order, each with its properties. -/

namespace CamelLint

structure Module where
  name : String
  properties : Entries String
  deriving DecidableEq, Repr

namespace Module

def ofName (name : String) : Module := ⟨name, []⟩

def withProperty (m : Module) (key value : String) : Module :=
  { m with properties := Entries.insert key value m.properties }

end Module

structure Config where
  modules : List Module
  deriving DecidableEq, Repr

namespace Config

def empty : Config := ⟨[]⟩

/-- The first module with the name. -/
def module? (c : Config) (name : String) : Option Module := c.modules.find? (·.name = name)

/-- The properties of the first module with the name; none if there is no such module. -/
def propertiesFor (c : Config) (name : String) : Entries String :=
  match c.module? name with
  | none => []
  | some m => m.properties

def addModule (c : Config) (name : String) : Config := ⟨c.modules ++ [Module.ofName name]⟩

/-- Writes a property of the last module, if there is one. -/
def setProperty? (c : Config) (key value : String) : Option Config :=
  c.modules.getLast?.map fun m => ⟨c.modules.dropLast ++ [m.withProperty key value]⟩

end Config

end CamelLint
