import CamelLint.Xml.Tag

/-! Namespaces. Bindings have no effect on what a configuration means, but two names
are reserved: one always belongs to `xml` and to nothing else, the other is never
bound, and neither is `xmlns`. A tag that breaks this is not well-formed. -/

namespace CamelLint.Xml

/-- A namespace name of the standards that define markup. -/
def standardName (path : String) : List Char :=
  (String.join ["http", ":", "//www.w3.org/", path]).toList

/-- The namespace of `xml`. -/
def xmlName : List Char := standardName "XML/1998/namespace"

/-- The namespace of `xmlns`. -/
def xmlnsName : List Char := standardName "2000/xmlns/"

/-- What an attribute binds to a namespace, if it does; the default namespace apart. -/
def bound? (key : List Char) : Option (List Char) :=
  match key with
  | 'x' :: 'm' :: 'l' :: 'n' :: 's' :: ':' :: r => some r
  | _ => none

def isSoundBinding (name value : List Char) : Bool :=
  if name = "xml".toList then value = xmlName
  else name ≠ "xmlns".toList && value ≠ xmlName && value ≠ xmlnsName

/-- Whether the attributes of a tag, up to the first that is not well-formed, keep to the
reserved names. Values are taken as they are written. -/
def bindsSoundly (attributes : List Char) : Bool :=
  (splitAttributes .gap attributes).list.all fun a =>
    match bound? a.key with
    | some name => isSoundBinding name a.value
    | none => true

end CamelLint.Xml
