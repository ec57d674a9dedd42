import CamelLint.Config.Basic
import CamelLint.Proofs.Xml.Grammar
import CamelLint.Toml.Document
import Mathlib.Data.List.Forall2

/-! Module lists as they are written. Relations say which texts write a string, a key, a
line and a document, and which lines give a module: the properties under a header of
their own, by dotted keys, or in an inline table. In another form all modules stand in
one array. Blanks and empty lines are the writer's choice, and so is the order in which
the keys come. -/

namespace CamelLint.Toml

open Xml (Numeral)

/-! ### Strings and keys -/

/-- The escapes of one letter, and what they stand for. -/
def letterEscapes : List (Char × Char) :=
  [('b', '\x08'), ('t', '\t'), ('n', '\n'), ('f', '\x0c'), ('r', '\r'), ('e', '\x1b'), ('"', '"'),
   ('\\', '\\')]

/-- The letters of escapes by number, and how many digits follow them. -/
def codeEscapes : List (Char × Nat) := [('x', 2), ('u', 4), ('U', 8)]

def isControl (c : Char) : Bool := c.toNat < 0x20 || c.toNat = 0x7F

/-- The ways of writing a text between quotes: the quote, the backslash and controls but the
tab by escapes, and each other character by itself or by an escape. -/
inductive Escapes : List Char → List Char → Prop where
  | nil : Escapes [] []
  | literal {c : Char} {s raw : List Char} (hq : c ≠ '"') (hb : c ≠ '\\')
      (hc : c = '\t' ∨ isControl c = false) (hs : Escapes s raw) : Escapes (c :: s) (c :: raw)
  | letter {l c : Char} {s raw : List Char} (h : (l, c) ∈ letterEscapes) (hs : Escapes s raw) :
      Escapes (c :: s) ('\\' :: l :: raw)
  | code {l c : Char} {s digits raw : List Char} (h : (l, digits.length) ∈ codeEscapes)
      (hn : Numeral 16 digits c.toNat) (hs : Escapes s raw) :
      Escapes (c :: s) ('\\' :: l :: (digits ++ raw))

inductive StringText (s : String) : List Char → Prop where
  | mk {raw : List Char} (h : Escapes s.toList raw) : StringText s ('"' :: (raw ++ ['"']))

/-- A key is quoted, or stands by itself if it is made of letters, digits, underscores and
hyphens. -/
inductive KeyText (s : String) : List Char → Prop where
  | quoted {cs : List Char} (h : StringText s cs) : KeyText s cs
  | bare (hn : s ≠ "") (h : ∀ c ∈ s.toList, KeyParts.isKeyChar c = true) : KeyText s s.toList

def Blanks (s : List Char) : Prop := ∀ c ∈ s, c = ' ' ∨ c = '\t'

instance (s : List Char) : Decidable (Blanks s) :=
  List.decidableBAll (fun c => c = ' ' ∨ c = '\t') s

/-- Keys with dots between them. -/
inductive PathText : List String → List Char → Prop where
  | key {k : String} {cs : List Char} (h : KeyText k cs) : PathText [k] cs
  | dotted {k : String} {path : List String} {cs before after ds : List Char}
      (h : KeyText k cs) (hb : Blanks before) (ha : Blanks after) (hp : PathText path ds) :
      PathText (k :: path) (cs ++ before ++ '.' :: (after ++ ds))

/-! ### Assignments and lists -/

/-- A path, an equals sign and a value. -/
inductive AssignText (path : List String) (value : List Char → Prop) : List Char → Prop where
  | mk {cs before after ds : List Char} (hp : PathText path cs) (hb : Blanks before)
      (ha : Blanks after) (hv : value ds) :
      AssignText path value (cs ++ before ++ '=' :: (after ++ ds))

section Lists

variable {α : Type} (item : α → List Char → Prop)

/-- At least one item, and separators between them. -/
inductive Sequence (separator : Char) (gap : List Char → Prop) : List α → List Char → Prop where
  | last {a : α} {before cs after : List Char} (hb : gap before) (h : item a cs)
      (ha : Blanks after) : Sequence separator gap [a] (before ++ cs ++ after)
  | cons {a : α} {r : List α} {before cs after ds : List Char} (hb : gap before) (h : item a cs)
      (ha : Blanks after) (hr : Sequence separator gap r ds) :
      Sequence separator gap (a :: r) (before ++ cs ++ after ++ separator :: ds)

/-- Items with commas between them, in brackets. -/
inductive Bracketed (opening closing : Char) : List α → List Char → Prop where
  | nil {blanks : List Char} (h : Blanks blanks) :
      Bracketed opening closing [] (opening :: (blanks ++ [closing]))
  | items {as : List α} {cs : List Char} (h : Sequence item ',' Blanks as cs) :
      Bracketed opening closing as (opening :: (cs ++ [closing]))

end Lists

/-! ### Lines -/

/-- What is said of a module: its name, one of its properties by a dotted key, or all of them
by an inline table. -/
inductive Entry where
  | name (s : String)
  | property (key value : String)
  | properties (ps : List (String × String))
  deriving DecidableEq

def PropertyText (p : String × String) : List Char → Prop := AssignText [p.1] (StringText p.2)

def EntryText : Entry → List Char → Prop
  | .name s => AssignText ["name"] (StringText s)
  | .property k v => AssignText ["properties", k] (StringText v)
  | .properties ps => AssignText ["properties"] (Bracketed PropertyText '\x7b' '\x7d' ps)

inductive HeaderText (path : List String) : Bool → List Char → Prop where
  | table {before cs after : List Char} (hb : Blanks before) (h : PathText path cs)
      (ha : Blanks after) : HeaderText path false ('[' :: (before ++ cs ++ after ++ [']']))
  | array {before cs after : List Char} (hb : Blanks before) (h : PathText path cs)
      (ha : Blanks after) :
      HeaderText path true ('[' :: '[' :: (before ++ cs ++ after ++ [']', ']']))

/-- A line: a header, or something said of a module, of its properties or of all modules. -/
inductive Line where
  | header (path : List String) (isArray : Bool)
  | entry (e : Entry)
  | property (p : String × String)
  | modules (ms : List (List Entry))

def LineText : Line → List Char → Prop
  | .header path isArray => HeaderText path isArray
  | .entry e => EntryText e
  | .property p => PropertyText p
  | .modules ms =>
    AssignText ["module"] (Bracketed (Bracketed EntryText '\x7b' '\x7d') '[' ']' ms)

/-- Empty lines, and the blanks that a line begins with. -/
def Gap (s : List Char) : Prop := ∀ c ∈ s, c = ' ' ∨ c = '\t' ∨ c = '\n'

instance (s : List Char) : Decidable (Gap s) :=
  List.decidableBAll (fun c => c = ' ' ∨ c = '\t' ∨ c = '\n') s

/-- A document, which may end with its last line or after the end of it. -/
inductive LinesText : List Line → List Char → Prop where
  | nil {gap : List Char} (h : Gap gap) : LinesText [] gap
  | lines {ls : List Line} {cs : List Char} (h : Sequence LineText '\n' Gap ls cs) :
      LinesText ls cs
  | ended {ls : List Line} {cs gap : List Char} (h : Sequence LineText '\n' Gap ls cs)
      (hg : Gap gap) : LinesText ls (cs ++ '\n' :: gap)

/-! ### Modules -/

/-- What gives a module: its name, and its properties in any order. A module without
properties may do with its name. -/
inductive Gives (m : Module) : List Entry → Prop where
  | dotted {es : List Entry}
      (h : es.Perm (.name m.name :: m.properties.map fun p => .property p.1 p.2)) : Gives m es
  | inline {es : List Entry} {ps : List (String × String)} (hp : ps.Perm m.properties)
      (h : es = [.name m.name, .properties ps] ∨ es = [.properties ps, .name m.name]) : Gives m es

/-- The lines of a module, from its header on. -/
inductive Block (m : Module) : List Line → Prop where
  | entries {es : List Entry} (h : Gives m es) :
      Block m (.header ["module"] true :: es.map .entry)
  | table {ps : List (String × String)} (hp : ps.Perm m.properties) :
      Block m (.header ["module"] true :: .entry (.name m.name) ::
        .header ["module", "properties"] false :: ps.map .property)

/-- The texts that write a list of modules: one block for each, or all of them in an array. -/
inductive Writes (ms : List Module) (cs : List Char) : Prop where
  | blocks {ls : List (List Line)} (hb : List.Forall₂ Block ms ls) (h : LinesText ls.flatten cs)
  | array {es : List (List Entry)} (hg : List.Forall₂ Gives ms es)
      (h : LinesText [.modules es] cs)

end CamelLint.Toml
