import CamelLint.Config.Basic
import CamelLint.Config.Error
import CamelLint.Xml.Scan

/-! Module trees in documents. An element read as a module has a name, properties and
further modules; its other content counts for nothing. When the first `property` or
`module` child comes up, all children of that element name are read at once, and
what stands between them is held back. Only what is held back has its references and
bindings looked at all the way down; of an element passed over otherwise, just its
first tags are. Faults are found in this order of reading. -/

namespace CamelLint.Xml

/-- A module with its properties, as they are written, and the modules in it. -/
inductive ModuleTree where
  | node (name : String) (properties : List (String × String)) (children : List ModuleTree)
  deriving Repr, Inhabited

namespace ModuleTree

mutual

/-- The modules of a tree, a parent before its children, after those in `out`. -/
def flattenInto (out : List Module) : ModuleTree → List Module
  | node name properties children =>
    flattenAllInto (out ++ [⟨name, Entries.ofList properties⟩]) children

def flattenAllInto (out : List Module) : List ModuleTree → List Module
  | [] => out
  | t :: r => flattenAllInto (flattenInto out t) r

end

def flatten (t : ModuleTree) : List Module := flattenInto [] t

end ModuleTree

/-! ### Attributes -/

/-- The fields of a module or property that are read so far. -/
structure Fields where
  name : Option String := none
  value : Option String := none

inductive Field where
  | name
  | value
  deriving DecidableEq, Repr

namespace Field

/-- The name by which messages and elements call a field. -/
def label : Field → String
  | name => "@name"
  | value => "@value"

end Field

namespace Fields

def get (fields : Fields) : Field → Option String
  | .name => fields.name
  | .value => fields.value

def set (fields : Fields) (field : Field) (s : String) : Fields :=
  match field with
  | .name => { fields with name := some s }
  | .value => { fields with value := some s }

/-- Sets a field that is not set yet, if its text can be read. -/
def add (fields : Fields) (field : Field) (text : Option (List Char)) : Except Fault Fields :=
  if (fields.get field).isSome then .error (.misfit (.duplicateField field.label))
  else
    match text with
    | none => .error .malformed
    | some t => .ok (fields.set field (String.ofList t))

def addAttribute (wanted : List Field) (fields : Fields) (a : Attribute) : Except Fault Fields :=
  match wanted.find? fun f => (attributeName? a.key).any fun n => '@' :: n = f.label.toList with
  | none => .ok fields
  | some f => fields.add f (unescape? a.value)

/-- The fields that a tag sets. Its bindings come first. -/
def ofAttributes (wanted : List Field) (text : List Char) : Except Fault Fields := do
  if !bindsSoundly text then .error .malformed
  let attributes := attributesOf text
  let fields ← attributes.list.foldlM (addAttribute wanted) {}
  if attributes.wellFormed then return fields else .error .malformed

/-- The field that an element of this name sets. -/
def ofElement? (wanted : List Field) (name : List Char) : Option Field :=
  wanted.find? fun f => localName name = f.label.toList

/-- The name, without which nothing is complete. -/
def requireName (fields : Fields) : Except Fault String :=
  match fields.name with
  | some n => .ok n
  | none => .error (.misfit (.missingField Field.name.label))

end Fields

/-- The text of an element that is closed and holds no other. -/
def elementText? (content : List Node) (closed : Bool) : Option (List Char) :=
  if closed then Node.text? content else none

/-! ### Properties -/

def propertyFields : List Field := [.name, .value]

/-- Reads a node that can only set a field. -/
def Fields.addNode (wanted : List Field) (fields : Fields) : Node → Except Fault Fields
  | .char _ | .cdata _ | .doctype => .ok fields
  | .reference name => if (resolve? name).isSome then .ok fields else .error .malformed
  | .element name attributes content closed =>
    match Fields.ofElement? wanted name with
    | some f =>
      if bindsSoundly attributes then fields.add f (elementText? content closed)
      else .error .malformed
    | none =>
      if (Node.element name attributes content closed).isPassable then .ok fields
      else .error .malformed

/-- Reads an element as a property; without a value, the value is empty. -/
def readProperty : Node → Except Fault (String × String)
  | .element _ attributes content closed => do
    let fields ← Fields.ofAttributes propertyFields attributes
    let fields ← content.foldlM (Fields.addNode propertyFields) fields
    if closed then
      let name ← fields.requireName
      return (name, fields.value.getD "")
    else .error .malformed
  | _ => .error .malformed

/-! ### Modules -/

/-- The lists that a module holds. -/
inductive Listing where
  | properties
  | modules
  deriving DecidableEq, Repr

namespace Listing

/-- The name of the elements of the list. -/
def label : Listing → String
  | properties => "property"
  | modules => "module"

def ofElement? (name : List Char) : Option Listing :=
  [properties, modules].find? fun l => localName name = l.label.toList

end Listing

/-- A child of a module, with what it gives if it is read as a module. -/
structure Child where
  node : Node
  asModule : Except Fault ModuleTree

namespace Child

/-- The full name of an element that belongs to a list, and the list. -/
def listing? (c : Child) : Option (List Char × Listing) :=
  match c.node with
  | .element name .. => (Listing.ofElement? name).map (name, ·)
  | _ => none

def hasName (c : Child) (name : List Char) : Bool :=
  match c.node with
  | .element n .. => n = name
  | _ => false

end Child

/-- What is read of a module so far. -/
structure Draft where
  fields : Fields
  properties : Option (List (String × String)) := none
  modules : Option (List ModuleTree) := none

namespace Draft

def has (p : Draft) : Listing → Bool
  | .properties => p.properties.isSome
  | .modules => p.modules.isSome

def addNode (p : Draft) (n : Node) : Except Fault Draft := do
  return { p with fields := ← p.fields.addNode [.name] n }

/-- Reads children up to the first that belongs to a list. -/
def lead (p : Draft) : List Child → Except Fault (Draft × List Child)
  | [] => .ok (p, [])
  | c :: r =>
    match c.listing? with
    | some _ => .ok (p, c :: r)
    | none => do lead (← p.addNode c.node) r

/-- Reads all children of one name, and holds the others back. -/
def gather {α : Type} (name : List Char) (read : Child → Except Fault α) :
    List Child → Except Fault (List α × List Child)
  | [] => .ok ([], [])
  | c :: r =>
    if c.hasName name then do
      let a ← read c
      let (as, held) ← gather name read r
      return (a :: as, held)
    else if c.node.isSound then do
      let (as, held) ← gather name read r
      return (as, c :: held)
    else .error .malformed

/-- Reads the list that the first child begins, and gives the other children. -/
def readList (p : Draft) (name : List Char) (children : List Child) :
    Listing → Except Fault (Draft × List Child)
  | .properties => do
    let (ps, held) ← gather name (fun c => readProperty c.node) children
    return ({ p with properties := some ps }, held)
  | .modules => do
    let (ms, held) ← gather name (·.asModule) children
    return ({ p with modules := some ms }, held)

/-- The list that the children begin with. -/
def nextListing? (children : List Child) : Option (List Char × Listing) :=
  children.head?.bind Child.listing?

/-- The content ends here, with the end tag if the module is closed. -/
def finish (closed : Bool) (p : Draft) : Except Fault Draft :=
  if closed then .ok p else .error .malformed

def repeated (l : Listing) : Fault := .misfit (.duplicateField l.label)

/-- Reads the content of a module of which at most `unread` lists are still to come. -/
def readContent (closed : Bool) : Nat → Draft → List Child → Except Fault Draft
  | 0, p, children =>
    match p.lead children with
    | .error e => .error e
    | .ok (p, rest) =>
      match nextListing? rest with
      | none => p.finish closed
      | some (_, l) => .error (repeated l)
  | unread + 1, p, children =>
    match p.lead children with
    | .error e => .error e
    | .ok (p, rest) =>
      match nextListing? rest with
      | none => p.finish closed
      | some (name, l) =>
        if p.has l then .error (repeated l)
        else
          match p.readList name rest l with
          | .error e => .error e
          | .ok (p, held) => if closed then readContent closed unread p held else .error .malformed

end Draft

/-- Puts a module together from its attributes and children. -/
def assemble (attributes : List Char) (children : List Child) (closed : Bool) :
    Except Fault ModuleTree := do
  let fields ← Fields.ofAttributes [.name] attributes
  let p ← Draft.readContent closed 2 { fields } children
  let name ← p.fields.requireName
  return .node name (p.properties.getD []) (p.modules.getD [])

mutual

/-- Reads an element as a module, whatever its name is. -/
def readModule : Node → Except Fault ModuleTree
  | .element _ attributes content closed => assemble attributes (childrenOf content) closed
  | _ => .error .malformed

def childrenOf : List Node → List Child
  | [] => []
  | n :: r => ⟨n, readModule n⟩ :: childrenOf r

end

/-! ### Documents -/

/-- Only blanks may stand before the root. -/
def checkBefore : List Node → List Node → Except Fault Unit
  | run, [] => checkRun run.reverse
  | run, .doctype :: r => do
    checkRun run.reverse
    checkBefore [] r
  | run, n :: r => checkBefore (n :: run) r
where
  checkRun (run : List Node) : Except Fault Unit :=
    match Node.text? run with
    | none => .error .malformed
    | some t =>
      if t.all isSpace then .ok ()
      else .error (.misfit (.wrongType (.text (String.ofList t)) "struct XmlModule"))

/-- The tree of modules that a document holds. -/
def Document.moduleTree (d : Document) : Except Fault ModuleTree := do
  checkBefore [] d.before
  match d.root with
  | none => .error .malformed
  | some root => readModule root

/-- The configuration that an XML text writes. -/
def parseConfig (source : String) : Except Fault Config := do
  let tree ← (scan source).moduleTree
  return ⟨tree.flatten⟩

end CamelLint.Xml
