import CamelLint.Xml.Node

/-! The scanner: one step a character, with a stack of open elements. It stops at the
end of the root element, whatever follows, and where the text is not well-formed. -/

namespace CamelLint.Xml

/-- Where in a document type declaration the scanner stands: before its internal subset, in
it, after it, or in the markup of the subset, of which it knows the first characters until
it knows the kind. -/
inductive DoctypeZone where
  | before (quote : Option Char)
  | subset
  | markup (read : List Char)
  | plain
  | declaration (quote : Option Char)
  | comment (dashes : Nat)
  | instruction (mark : Bool)
  | after
  deriving DecidableEq, Repr

/-- What the scanner is inside of. Characters read so far are in reverse order. In text it
knows whether the last character was a carriage return, since a line end is read as
one line feed, however it is written. -/
inductive Mode where
  | text (afterReturn : Bool)
  | reference (name : List Char)
  | opened
  | startTag (quote : Option Char) (content : List Char)
  | endTag (quote : Option Char) (content : List Char)
  | instruction (mark : Option Bool)
  | bang
  | commentOpen
  | comment (dashes : Nat)
  | cdataOpen (expected : List Char)
  | cdata (content : List Char)
  | doctypeOpen (expected : List Char)
  | doctype (named : Bool) (zone : DoctypeZone)
  deriving DecidableEq, Repr

/-- An open element, with its content so far in reverse order. -/
structure Frame where
  name : List Char
  attributes : List Char
  content : List Node

/-- What is open: the nodes before the root, in reverse order, and the open elements, the
innermost first. -/
structure Open where
  before : List Node
  frames : List Frame

inductive Scan where
  | reading (mode : Mode) (stack : Open)
  | complete (before : List Node) (root : Node)
  | broken (stack : Open)

namespace Open

def push (o : Open) (n : Node) : Open :=
  match o.frames with
  | [] => { o with before := n :: o.before }
  | f :: r => { o with frames := { f with content := n :: f.content } :: r }

/-- The elements that are open, put into one another and left unclosed. -/
def cut : List Frame → Option Node → Option Node
  | [], inner => inner
  | f :: r, inner =>
    cut r (some (.element f.name f.attributes (f.content.reverse ++ inner.toList) false))

end Open

namespace Scan

open Mode

def start : Scan := reading (text false) ⟨[], []⟩

/-- Closes the innermost element. -/
def close (o : Open) : Scan :=
  match o.frames with
  | [] => broken o
  | [f] => complete o.before (.element f.name f.attributes f.content.reverse true)
  | f :: r =>
    let parent : Open := { o with frames := r }
    reading (text false) (parent.push (.element f.name f.attributes f.content.reverse true))

/-- Opens the element of a start tag, and closes it at once if the tag ends in a slash. -/
def enter (reversed : List Char) (o : Open) : Scan :=
  let (content, empty) := match reversed with
    | '/' :: r => (r.reverse, true)
    | r => (r.reverse, false)
  let name := content.takeWhile (!isSpace ·)
  let attributes := content.dropWhile (!isSpace ·)
  let inside : Open := { o with frames := ⟨name, attributes, []⟩ :: o.frames }
  if empty then close inside else reading (text false) inside

/-- Closes the innermost element if the end tag has its name, blanks after it apart. -/
def leave (reversed : List Char) (o : Open) : Scan :=
  let name :=
    match reversed.dropWhile isSpace with
    | [] => reversed.reverse
    | r => r.reverse
  match o.frames with
  | [] => broken o
  | f :: _ => if f.name = name then close o else broken o

/-- The quote that is open after a character of a tag. -/
def quoteAfter (quote : Option Char) (c : Char) : Option Char :=
  match quote with
  | none => if isQuote c then some c else none
  | some q => if c = q then none else some q

/-- What a character of text is read as: a carriage return, a next line and a line separator
each as a line feed, and the second character of a line end as nothing. -/
def lineChar? (afterReturn : Bool) (c : Char) : Option Char :=
  if c = '\r' ∨ c = '\u2028' then some '\n'
  else if c = '\n' ∨ c = '\u0085' then if afterReturn then none else some '\n'
  else some c

/-- A text with single line feeds for line ends. -/
def joinLines : Bool → List Char → List Char
  | _, [] => []
  | afterReturn, c :: r => (lineChar? afterReturn c).toList ++ joinLines (c = '\r') r

/-- The kinds of markup in an internal subset that may hold a closing bracket of their own, by
what follows the opening bracket. -/
def subsetMarkup : List (List Char × DoctypeZone) :=
  [("?".toList, .instruction false), ("!--".toList, .comment 0),
   ("!ENTITY".toList, .declaration none), ("!ATTLIST".toList, .declaration none),
   ("!NOTATION".toList, .declaration none)]

/-- Other markup ends at the first closing bracket. -/
def stepPlain (c : Char) : DoctypeZone := if c = '>' then .subset else .plain

def stepMarkup (read : List Char) (c : Char) : DoctypeZone :=
  let read := read ++ [c]
  match subsetMarkup.find? (·.1 = read) with
  | some kind => kind.2
  | none => if subsetMarkup.any fun kind => read.isPrefixOf kind.1 then .markup read else stepPlain c

def stepDoctype (named : Bool) (zone : DoctypeZone) (c : Char) (o : Open) : Scan :=
  let on (zone : DoctypeZone) : Scan := reading (doctype (named || !isSpace c) zone) o
  let finish : Scan := if named then reading (text false) (o.push .doctype) else broken o
  match zone with
  | .before none => if c = '>' then finish else if c = '[' then on .subset
    else on (.before (quoteAfter none c))
  | .before (some q) => on (.before (quoteAfter (some q) c))
  | .subset => if c = ']' then on .after else if c = '<' then on (.markup []) else on .subset
  | .markup read => on (stepMarkup read c)
  | .plain => on (stepPlain c)
  | .declaration none => if c = '>' then on .subset else on (.declaration (quoteAfter none c))
  | .declaration (some q) => on (.declaration (quoteAfter (some q) c))
  | .comment dashes =>
    if c = '-' then on (.comment (dashes + 1)) else if c = '>' ∧ 2 ≤ dashes then on .subset
    else on (.comment 0)
  | .instruction mark => if c = '>' ∧ mark then on .subset else on (.instruction (c = '?'))
  | .after => if c = '>' then finish else on .after

def stepTag (quote : Option Char) (content : List Char) (c : Char) (o : Open) : Scan :=
  if c = '>' ∧ quote = none then enter content o
  else reading (startTag (quoteAfter quote c) (c :: content)) o

def stepMode (mode : Mode) (o : Open) (c : Char) : Scan :=
  match mode with
  | text afterReturn =>
    if c = '<' then reading opened o
    else if c = '&' then reading (reference []) o
    else
      match lineChar? afterReturn c with
      | some d => reading (text (c = '\r')) (o.push (.char d))
      | none => reading (text false) o
  | reference name =>
    if c = ';' then reading (text false) (o.push (.reference name.reverse))
    else if c = '&' ∨ c = '<' then broken o
    else reading (reference (c :: name)) o
  | opened =>
    if c = '!' then reading bang o
    else if c = '/' then reading (endTag none []) o
    else if c = '?' then reading (instruction none) o
    else stepTag none [] c o
  | startTag quote content => stepTag quote content c o
  | endTag quote content =>
    if c = '>' ∧ quote = none then leave content o
    else reading (endTag (quoteAfter quote c) (c :: content)) o
  | instruction none => if c = '>' then broken o else reading (instruction (some (c = '?'))) o
  | instruction (some mark) =>
    if c = '>' ∧ mark then reading (text false) o else reading (instruction (some (c = '?'))) o
  | bang =>
    if c = '[' then reading (cdataOpen "CDATA[".toList) o
    else if c = '-' then reading commentOpen o
    else if c = 'D' ∨ c = 'd' then reading (doctypeOpen "OCTYPE".toList) o
    else broken o
  | commentOpen => if c = '-' then reading (comment 0) o else broken o
  | comment dashes =>
    if c = '-' then reading (comment (dashes + 1)) o
    else if c = '>' ∧ 2 ≤ dashes then reading (text false) o
    else reading (comment 0) o
  | cdataOpen [] => broken o
  | cdataOpen (e :: r) =>
    if c ≠ e then broken o
    else if r.isEmpty then reading (cdata []) o
    else reading (cdataOpen r) o
  | cdata content =>
    match c, content with
    | '>', ']' :: ']' :: r =>
      reading (text false) (o.push (.cdata (joinLines false r.reverse)))
    | _, _ => reading (cdata (c :: content)) o
  | doctypeOpen [] => broken o
  | doctypeOpen (e :: r) =>
    if c.toUpper ≠ e then broken o
    else if r.isEmpty then reading (doctype false (.before none)) o
    else reading (doctypeOpen r) o
  | doctype named zone => stepDoctype named zone c o

def step : Scan → Char → Scan
  | reading mode o, c => stepMode mode o c
  | complete before root, _ => complete before root
  | broken o, _ => broken o

def run (s : Scan) (cs : List Char) : Scan := cs.foldl step s

@[simp] theorem run_nil (s : Scan) : s.run [] = s := rfl

@[simp] theorem run_cons (s : Scan) (c : Char) (cs : List Char) :
    s.run (c :: cs) = (s.step c).run cs := rfl

theorem run_append (s : Scan) (cs ds : List Char) : s.run (cs ++ ds) = (s.run cs).run ds :=
  List.foldl_append

/-- What follows the root element is never looked at. -/
@[simp] theorem run_complete (before : List Node) (root : Node) (cs : List Char) :
    (complete before root).run cs = complete before root := by
  induction cs with
  | nil => rfl
  | cons c r ih => exact ih

/-- Nothing mends a document that is not well-formed. -/
@[simp] theorem run_broken (o : Open) (cs : List Char) : (broken o).run cs = broken o := by
  induction cs with
  | nil => rfl
  | cons c r ih => exact ih

def document : Scan → Document
  | complete before root => ⟨before.reverse, some root⟩
  | reading _ o | broken o => ⟨o.before.reverse, Open.cut o.frames none⟩

end Scan

/-- The document that a text writes. A byte order mark at its start is dropped. -/
def scan (source : String) : Document :=
  let cs := match source.toList with
    | '\uFEFF' :: r => r
    | cs => cs
  (Scan.start.run cs).document

end CamelLint.Xml
