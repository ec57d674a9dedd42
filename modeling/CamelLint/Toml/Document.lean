import CamelLint.Toml.Scalar
import CamelLint.Toml.Token

/-! Reading a document off its tokens, one step a token, with a stack of the arrays and
inline tables that are open. -/

namespace CamelLint.Toml

/-- Arrays and inline tables lie at most this deep in one another, and keys have at most this
many parts. -/
def depthLimit : Nat := 80

/-- A key that is being read: its parts in reverse order, and whether another one must
follow. -/
structure KeyParts where
  parts : List String
  awaited : Bool
  deriving DecidableEq, Repr

namespace KeyParts

def none : KeyParts := ⟨[], true⟩

def isKeyChar (c : Char) : Bool :=
  ('a' ≤ c && c ≤ 'z') || ('A' ≤ c && c ≤ 'Z') || ('0' ≤ c && c ≤ '9') || c = '_' || c = '-'

/-- The part of a key that a token is. -/
def part? : Token → Option String
  | .word w => if w.all isKeyChar then some (String.ofList w) else Option.none
  | .string s false => some s
  | _ => Option.none

/-- Goes on with a key, if the token belongs to one. -/
def step? (k : KeyParts) (t : Token) : Option KeyParts :=
  match t with
  | .blank _ => some k
  | .dot => if k.awaited then Option.none else some { k with awaited := true }
  | t =>
    if k.awaited ∧ k.parts.length < depthLimit then (part? t).map fun p => ⟨p :: k.parts, false⟩
    else Option.none

/-- The complete key. -/
def path? (k : KeyParts) : Option (List String) :=
  if k.awaited then Option.none else some k.parts.reverse

end KeyParts

/-- What a value belongs to when it is complete. -/
inductive Frame where
  | line (key : List String)
  | array (items : List Value)
  | inline (entries : Entries Value) (key : List String)
  deriving Repr

/-- What the reader expects next. -/
inductive Expecting where
  | statement
  | header
  | headerKey (isArray : Bool) (key : KeyParts)
  | headerEnd (path : List String)
  | lineEnd
  | key (key : KeyParts)
  | inlineKey (entries : Entries Value) (key : KeyParts)
  | inlineEquals (entries : Entries Value) (key : List String)
  | inlineStart (entries : Entries Value)
  | inlineNext (entries : Entries Value)
  | item (items : List Value)
  | itemNext (items : List Value)
  | value (owner : Frame)
  | scalar (text : List Char) (owner : Frame)
  | scalarBlank (text blanks : List Char) (owner : Frame)
  deriving Repr

/-- The reader: the sections before the current one in reverse order, the current one with
its statements in reverse order, and the open frames around the current one. -/
structure Progress where
  finished : List Section
  current : Section
  stack : List Frame

namespace Progress

/-- The sections, with their statements in order. -/
def sections (p : Progress) : List Section :=
  (p.current :: p.finished).reverse.map fun s => { s with statements := s.statements.reverse }

end Progress

inductive Reading where
  | reading (expecting : Expecting) (progress : Progress)
  | broken

namespace Reading

open Expecting

def start : Reading := reading statement ⟨[], ⟨[], false, []⟩, []⟩

/-- Hands a complete value to what it belongs to. -/
def complete (p : Progress) (v : Value) : Frame → Reading
  | .line path =>
    reading lineEnd
      { p with current := { p.current with statements := (path, v) :: p.current.statements } }
  | .array items => reading (itemNext (v :: items)) p
  | .inline entries path =>
    match addStatement .inline entries (path, v) with
    | some entries => reading (inlineNext entries) p
    | none => broken

/-- Closes the array or table that the innermost frame stands around. -/
def close (p : Progress) (v : Value) : Reading :=
  match p.stack with
  | [] => broken
  | f :: r => complete { p with stack := r } v f

/-- Opens an array or table around which `owner` stands. -/
def enter (p : Progress) (owner : Frame) (inner : Expecting) : Reading :=
  if p.stack.length < depthLimit then reading inner { p with stack := owner :: p.stack } else broken

/-- Lines may end before a value in an inline table, as everywhere between its tokens but
inside its keys. -/
def stepValue (p : Progress) (owner : Frame) : Token → Reading
  | .blank _ => reading (value owner) p
  | .newline =>
    match owner with
    | .inline .. => reading (value owner) p
    | _ => broken
  | .string s _ => complete p (.string s) owner
  | .word w => reading (scalar w owner) p
  | .openBracket => enter p owner (item [])
  | .openBrace => enter p owner (inlineStart [])
  | _ => broken

def newSection (p : Progress) (path : List String) (isArray : Bool) : Progress :=
  { p with finished := p.current :: p.finished, current := ⟨path, isArray, []⟩ }

def stepHeaderKey (p : Progress) (isArray : Bool) (k : KeyParts) (t : Token) : Reading :=
  match t, k.path? with
  | .closeBracket, some path =>
    if isArray then reading (headerEnd path) p else reading lineEnd (newSection p path false)
  | t, _ =>
    match k.step? t with
    | some k => reading (headerKey isArray k) p
    | none => broken

/-- A step between complete values. -/
def stepPlain (e : Expecting) (p : Progress) (t : Token) : Reading :=
  match e, t with
  | statement, .blank _ => reading statement p
  | statement, .newline => reading statement p
  | statement, .openBracket => reading header p
  | statement, t =>
    match KeyParts.none.step? t with
    | some k => reading (key k) p
    | none => broken
  | header, .openBracket => reading (headerKey true .none) p
  | header, t => stepHeaderKey p false .none t
  | headerKey isArray k, t => stepHeaderKey p isArray k t
  | headerEnd path, .closeBracket => reading lineEnd (newSection p path true)
  | headerEnd _, _ => broken
  | lineEnd, .blank _ => reading lineEnd p
  | lineEnd, .newline => reading statement p
  | lineEnd, _ => broken
  | key k, t =>
    match t, k.path? with
    | .equals, some path => reading (value (.line path)) p
    | t, _ =>
      match k.step? t with
      | some k => reading (key k) p
      | none => broken
  | inlineStart entries, .blank _ => reading (inlineStart entries) p
  | inlineStart entries, .newline => reading (inlineStart entries) p
  | inlineStart entries, .closeBrace => close p (.table .inline entries)
  | inlineStart entries, t =>
    match KeyParts.none.step? t with
    | some k => reading (inlineKey entries k) p
    | none => broken
  | inlineKey entries k, t =>
    match t, k.path? with
    | .equals, some path => reading (value (.inline entries path)) p
    | .newline, some path => reading (inlineEquals entries path) p
    | t, _ =>
      match k.step? t with
      | some k => reading (inlineKey entries k) p
      | none => broken
  | inlineEquals entries path, .blank _ => reading (inlineEquals entries path) p
  | inlineEquals entries path, .newline => reading (inlineEquals entries path) p
  | inlineEquals entries path, .equals => reading (value (.inline entries path)) p
  | inlineEquals .., _ => broken
  | inlineNext entries, .blank _ => reading (inlineNext entries) p
  | inlineNext entries, .newline => reading (inlineNext entries) p
  | inlineNext entries, .comma => reading (inlineStart entries) p
  | inlineNext entries, .closeBrace => close p (.table .inline entries)
  | inlineNext _, _ => broken
  | item items, .blank _ => reading (item items) p
  | item items, .newline => reading (item items) p
  | item items, .closeBracket => close p (.array items.reverse false)
  | item items, t => stepValue p (.array items) t
  | itemNext items, .blank _ => reading (itemNext items) p
  | itemNext items, .newline => reading (itemNext items) p
  | itemNext items, .comma => reading (item items) p
  | itemNext items, .closeBracket => close p (.array items.reverse false)
  | itemNext _, _ => broken
  | value owner, t => stepValue p owner t
  | scalar .., _ | scalarBlank .., _ => broken

/-- The reader after a scalar that ends here. -/
def endScalar (p : Progress) (text : List Char) (owner : Frame) : Reading :=
  match scalar? text with
  | some v => complete p v owner
  | none => broken

def stepAfter (r : Reading) (t : Token) : Reading :=
  match r with
  | reading e p => stepPlain e p t
  | broken => broken

/-- Words and dots go on with a scalar, also behind blanks; blanks at its end do not count. -/
def step : Reading → Token → Reading
  | reading (scalar text owner) p, .word w => reading (scalar (text ++ w) owner) p
  | reading (scalar text owner) p, .dot => reading (scalar (text ++ ['.']) owner) p
  | reading (scalar text owner) p, .blank c => reading (scalarBlank text [c] owner) p
  | reading (scalar text owner) p, t => stepAfter (endScalar p text owner) t
  | reading (scalarBlank text blanks owner) p, .word w =>
    reading (scalar (text ++ blanks ++ w) owner) p
  | reading (scalarBlank text blanks owner) p, .dot =>
    reading (scalar (text ++ blanks ++ ['.']) owner) p
  | reading (scalarBlank text blanks owner) p, .blank c =>
    reading (scalarBlank text (blanks ++ [c]) owner) p
  | reading (scalarBlank text _ owner) p, t => stepAfter (endScalar p text owner) t
  | reading e p, t => stepPlain e p t
  | broken, _ => broken

def run (r : Reading) (ts : List Token) : Reading := ts.foldl step r

@[simp] theorem run_nil (r : Reading) : r.run [] = r := rfl

@[simp] theorem run_cons (r : Reading) (t : Token) (ts : List Token) :
    r.run (t :: ts) = (r.step t).run ts := rfl

theorem run_append (r : Reading) (ts us : List Token) : r.run (ts ++ us) = (r.run ts).run us :=
  List.foldl_append

/-- The sections of the document, if it may end here. -/
def sections? : Reading → Option (List Section)
  | reading statement p | reading lineEnd p => some (p.sections)
  | reading (scalar text owner) p | reading (scalarBlank text _ owner) p =>
    match endScalar p text owner with
    | reading lineEnd p => some (p.sections)
    | _ => none
  | _ => none

end Reading

/-- The table that a text writes. -/
def parse? (source : String) : Option (Entries Value) := do
  let tokens ← tokens? source
  let sections ← (Reading.start.run tokens).sections?
  ofSections sections

end CamelLint.Toml
