import CamelLint.Config.Basic
import CamelLint.Config.Error
import CamelLint.Toml.Document

/-! Module lists in documents. The key `module` holds an array of modules, each a table
with a name and a table of properties, or an array of the two. A date counts as a
table of one entry. Tables are looked through in ascending order of their keys, and
the first misfit is reported; numbers that no type holds are misfits also where
nothing is asked of them. -/

namespace CamelLint.Toml

/-- The key of the one entry that a date has. -/
def dateKey : String := "$__toml_private_datetime"

namespace Value

/-- A value that is not of the type expected. -/
def wrongType (expected : String) : Value → Misfit
  | string s => .wrongType (.text s) expected
  | integer n => .wrongType (.integer n) expected
  | badInteger => .integerOverflow
  | float x => .wrongType (.float x) expected
  | hugeFloat => .floatOverflow
  | boolean b => .wrongType (.boolean b) expected
  | date _ | table .. => .wrongType .map expected
  | array .. => .wrongType .sequence expected

mutual

/-- Looks through a value of which nothing is asked. -/
def ignore : Value → Except Misfit Unit
  | badInteger => .error .integerOverflow
  | hugeFloat => .error .floatOverflow
  | array items _ => ignoreAll items
  | table _ entries => ignoreEntries entries
  | _ => .ok ()

def ignoreAll : List Value → Except Misfit Unit
  | [] => .ok ()
  | v :: r => do
    ignore v
    ignoreAll r

def ignoreEntries : List (String × Value) → Except Misfit Unit
  | [] => .ok ()
  | (_, v) :: r => do
    ignore v
    ignoreEntries r

end

def toText : Value → Except Misfit String
  | string s => .ok s
  | v => .error (v.wrongType "a string")

def toProperties : Value → Except Misfit (Entries String)
  | table _ entries => entries.mapM fun (k, v) => do return (k, ← v.toText)
  | date text => .ok [(dateKey, text)]
  | v => .error (v.wrongType "a map")

/-- Fields of a module that are read so far. -/
structure ModuleFields where
  name : Option String := none
  properties : Option (Entries String) := none

def ModuleFields.read (fields : ModuleFields) (entry : String × Value) :
    Except Misfit ModuleFields :=
  match entry.1 with
  | "name" => do return { fields with name := some (← entry.2.toText) }
  | "properties" => do return { fields with properties := some (← entry.2.toProperties) }
  | _ => do
    entry.2.ignore
    return fields

def toModule : Value → Except Misfit Module
  | table _ entries => do
    let fields ← entries.foldlM ModuleFields.read {}
    match fields.name with
    | some name => return ⟨name, fields.properties.getD []⟩
    | none => .error (.missingField "name")
  | date _ => .error (.missingField "name")
  | array items _ =>
    match items with
    | [] => .error (.wrongLength 0 "struct TomlModule with 2 elements")
    | [name] => do return ⟨← name.toText, []⟩
    | name :: properties :: _ => do return ⟨← name.toText, ← properties.toProperties⟩
  | v => .error (v.wrongType "struct TomlModule")

def toModules : Value → Except Misfit (List Module)
  | array items _ => items.mapM toModule
  | v => .error (v.wrongType "a sequence")

end Value

/-- The modules of a document's table. -/
def modulesOf (root : Entries Value) : Except Misfit (List Module) :=
  root.foldlM (fun modules (key, v) =>
    if key = "module" then v.toModules
    else do
      v.ignore
      return modules) []

/-- The configuration that a TOML text writes. -/
def parseConfig (source : String) : Except Fault Config :=
  match parse? source with
  | none => .error .malformed
  | some root =>
    match modulesOf root with
    | .error cause => .error (.misfit cause)
    | .ok modules => .ok ⟨modules⟩

end CamelLint.Toml
