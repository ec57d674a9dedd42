import CamelLint.Xml.Namespace
import CamelLint.Xml.Reference

/-! Documents as trees. Comments and processing instructions leave no trace. A
document that breaks off, because it ends or is not well-formed, has the elements
that are still open as its last ones, marked as not closed. -/

namespace CamelLint.Xml

inductive Node where
  | char (c : Char)
  | cdata (content : List Char)
  | reference (name : List Char)
  | doctype
  | element (name attributes : List Char) (content : List Node) (closed : Bool)
  deriving Repr, Inhabited

structure Document where
  before : List Node
  root : Option Node
  deriving Repr

namespace Node

mutual

/-- All elements are closed, with sound bindings, and all references known. -/
def isSound : Node → Bool
  | char _ | cdata _ | doctype => true
  | reference name => (resolve? name).isSome
  | element _ attributes content closed => bindsSoundly attributes && closed && areSound content

def areSound : List Node → Bool
  | [] => true
  | n :: r => isSound n && areSound r

end

/-- The bindings of an element are sound; other nodes have none. -/
def hasSoundTag : Node → Bool
  | element _ attributes _ _ => bindsSoundly attributes
  | _ => true

/-- What is asked of an element that is passed over: that it is closed, and that its tag and
the one that its content begins with, if it does, have sound bindings. -/
def isPassable : Node → Bool
  | element _ attributes content closed =>
    bindsSoundly attributes && closed && content.head?.all hasSoundTag
  | _ => true

/-- The text of nodes that are no elements and whose references are known. -/
def text? : List Node → Option (List Char)
  | [] => some []
  | char c :: r => (text? r).map (c :: ·)
  | cdata content :: r => (text? r).map (content ++ ·)
  | reference name :: r => (resolve? name).bind fun c => (text? r).map (c :: ·)
  | doctype :: r => text? r
  | element .. :: _ => none

end Node

end CamelLint.Xml
