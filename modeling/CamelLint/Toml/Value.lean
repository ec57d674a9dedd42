import CamelLint.Decimal.Binary64
import CamelLint.Entries

/-! The values of a TOML document, and the rules by which its statements define
tables. A table knows how it came about: only a table that a header went through
may get a header of its own, and only dotted keys add to what dotted keys
made. -/

namespace CamelLint.Toml

/-- How a table comes about: by a header of its own, by a header that goes through it, by a
dotted key, or as an inline table, which is closed once written. -/
inductive Origin where
  | header
  | implied
  | dotted
  | inline
  deriving DecidableEq, Repr

inductive Value where
  | string (s : String)
  | integer (n : Int)
  /-- A word with the form of an integer that is out of range, or that writes no number. -/
  | badInteger
  | float (x : Decimal.Binary64)
  /-- A number too large for a float. -/
  | hugeFloat
  | boolean (b : Bool)
  /-- A date, a time or both, in its normal form. -/
  | date (text : String)
  /-- An array, written out or built by headers. -/
  | array (items : List Value) (byHeaders : Bool)
  | table (origin : Origin) (entries : List (String × Value))
  deriving Repr, Inhabited

/-- What happens to the table that a path leads to. -/
abbrev Change := Origin → Entries Value → Option (Entries Value)

/-- Follows a path from a table and changes the table at its end. What is missing on the way
is made; an array built by headers stands for its last table. -/
def follow (dotted : Bool) (change : Change) : List String → Change
  | [], origin, entries => change origin entries
  | key :: path, _, entries =>
    match Entries.get? key entries with
    | none =>
      let made : Origin := if dotted then .dotted else .implied
      (follow dotted change path made []).map fun new => Entries.insert key (.table made new) entries
    | some (.table origin old) =>
      if origin = .inline ∨ (dotted ∧ origin = .header) then none
      else
        (follow dotted change path origin old).map fun new =>
          Entries.insert key (.table origin new) entries
    | some (.array items true) =>
      match items.getLast? with
      | some (.table origin old) =>
        (follow dotted change path origin old).map fun new =>
          Entries.insert key (.array (items.dropLast ++ [.table origin new]) true) entries
      | _ => none
    | some _ => none

/-- Gives a new key its value. Behind a dotted key only a table made by dotted keys will do. -/
def define (dotted : Bool) (key : String) (value : Value) : Change := fun origin entries =>
  if dotted ∧ origin ≠ .dotted then none
  else
    match Entries.get? key entries with
    | none => some (Entries.insert key value entries)
    | some _ => none

/-- Adds a statement to a table: a key, dotted or not, and its value. -/
def addStatement (origin : Origin) (entries : Entries Value) (statement : List String × Value) :
    Option (Entries Value) :=
  match statement.1.getLast? with
  | none => none
  | some key =>
    let path := statement.1.dropLast
    let dotted := !path.isEmpty
    follow dotted (define dotted key statement.2) path origin entries

/-- A header and the statements under it. -/
structure Section where
  path : List String
  isArray : Bool
  statements : List (List String × Value)
  deriving Repr

/-- Puts the table of a section into the one that its header's path leads to. -/
def Section.place (s : Section) (key : String) : Change := fun _ entries =>
  match s.isArray, Entries.get? key entries with
  | false, none => do
    let new ← s.statements.foldlM (addStatement .header) []
    return Entries.insert key (.table .header new) entries
  | false, some (.table .implied old) => do
    let new ← s.statements.foldlM (addStatement .header) old
    return Entries.insert key (.table .header new) entries
  | true, none => do
    let new ← s.statements.foldlM (addStatement .header) []
    return Entries.insert key (.array [.table .header new] true) entries
  | true, some (.array items true) => do
    let new ← s.statements.foldlM (addStatement .header) []
    return Entries.insert key (.array (items ++ [.table .header new]) true) entries
  | _, some _ => none

def addSection (root : Entries Value) (s : Section) : Option (Entries Value) :=
  match s.path.getLast? with
  | none => s.statements.foldlM (addStatement .header) root
  | some key => follow false (s.place key) s.path.dropLast .header root

/-- The table that sections define, of which the first stands before all headers. -/
def ofSections (sections : List Section) : Option (Entries Value) :=
  sections.foldlM addSection []

end CamelLint.Toml
