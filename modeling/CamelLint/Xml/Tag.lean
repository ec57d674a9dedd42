/-! Start tags: the name of an element, and the text after it split into attributes.
An attribute is a key, an equals sign and a quoted value, with blanks allowed
around each; a key holds anything but blanks and, after its first character, the
equals sign. -/

namespace CamelLint.Xml

/-- The blanks of markup. -/
def isSpace (c : Char) : Bool := c = ' ' || c = '\t' || c = '\r' || c = '\n'

structure Attribute where
  key : List Char
  value : List Char
  deriving DecidableEq, Repr

/-- The attributes of a tag up to the first that is not well-formed, if there is one. -/
structure Attributes where
  list : List Attribute
  wellFormed : Bool
  deriving DecidableEq, Repr

/-- Where in an attribute a reader stands. Characters read so far are in reverse order. -/
inductive AttributeMode where
  | gap
  | key (done : List Char)
  | afterKey (key : List Char)
  | afterEquals (key : List Char)
  | value (key : List Char) (quote : Char) (done : List Char)

def isQuote (c : Char) : Bool := c = '"' || c = '\''

def splitAttributes : AttributeMode → List Char → Attributes
  | .gap, [] => ⟨[], true⟩
  | .gap, c :: r => if isSpace c then splitAttributes .gap r else splitAttributes (.key [c]) r
  | .key done, c :: r =>
    if c = '=' then splitAttributes (.afterEquals done.reverse) r
    else if isSpace c then splitAttributes (.afterKey done.reverse) r
    else splitAttributes (.key (c :: done)) r
  | .afterKey key, c :: r =>
    if isSpace c then splitAttributes (.afterKey key) r
    else if c = '=' then splitAttributes (.afterEquals key) r
    else ⟨[], false⟩
  | .afterEquals key, c :: r =>
    if isSpace c then splitAttributes (.afterEquals key) r
    else if isQuote c then splitAttributes (.value key c []) r
    else ⟨[], false⟩
  | .value key quote done, c :: r =>
    if c = quote then
      let rest := splitAttributes .gap r
      { rest with list := ⟨key, done.reverse⟩ :: rest.list }
    else splitAttributes (.value key quote (c :: done)) r
  | _, [] => ⟨[], false⟩

/-- A key that repeats an earlier one ends the well-formed part. -/
def cutAtRepeat (wellFormed : Bool) : List (List Char) → List Attribute → Attributes
  | _, [] => ⟨[], wellFormed⟩
  | seen, a :: r =>
    if a.key ∈ seen then ⟨[], false⟩
    else
      let rest := cutAtRepeat wellFormed (a.key :: seen) r
      { rest with list := a :: rest.list }

/-- The attributes in the text of a tag after its name. -/
def attributesOf (text : List Char) : Attributes :=
  let split := splitAttributes .gap text
  cutAtRepeat split.wellFormed [] split.list

/-- A name without its prefix, which ends at the first colon. -/
def localName (name : List Char) : List Char :=
  match name.dropWhile (· ≠ ':') with
  | [] => name
  | _ :: r => r

/-- The name by which an attribute counts. Those in the reserved prefixes have none. -/
def attributeName? (key : List Char) : Option (List Char) :=
  let before := key.takeWhile (· ≠ ':')
  if before = key then some key
  else if before = "xml".toList ∨ before = "xmlns".toList then none
  else some (localName key)

end CamelLint.Xml
