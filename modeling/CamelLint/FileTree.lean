import CamelLint.Config.Error
import CamelLint.Entries
import CamelLint.Text.Blank

/-! Files and directories kept in memory, and reading from them by path as a file system
reads. Of what lies outside the working directory nothing is known. -/

namespace CamelLint

inductive FileTree where
  | file (content : ByteArray)
  | directory (entries : List (String × FileTree))

namespace FileTree

def empty : FileTree := directory []

/-- The longest name of a file, and the longest path with its end mark, in bytes. -/
def nameLimit : Nat := 255

def pathLimit : Nat := 4096

/-- The names between the slashes of a path. -/
def names (path : String) : List String := (Text.segments '/' path.toList).map String.ofList

/-- The place that names lead to, from the root and without detours: a double dot takes back
the name before it. -/
def place (names : List String) : List String :=
  (names.foldl (fun above name =>
    if name = "" ∨ name = "." then above else if name = ".." then above.drop 1 else name :: above)
    []).reverse

/-- Puts a file or a directory at a place, with the directories that lead there. What is
there already makes way for a file only. -/
def put (leaf : FileTree) : List String → FileTree → FileTree
  | [], there =>
    match leaf with
    | directory _ => there
    | file _ => leaf
  | name :: path, directory entries =>
    directory (Entries.insert name
      (put leaf path ((Entries.get? name entries).getD empty)) entries)
  | _ :: _, file content => file content

/-- Makes the directory that names lead to, and those on the way, also where a double dot
leads out of them again. -/
def makeDirectories (names : List String) (t : FileTree) : FileTree :=
  (List.range names.length).foldl (fun t n => put empty (place (names.take (n + 1))) t) t

def makeDirectory (path : String) (t : FileTree) : FileTree := makeDirectories (names path) t

def writeFile (path : String) (content : ByteArray) (t : FileTree) : FileTree :=
  put (file content) (place (names path)) (makeDirectories (names path).dropLast t)

/-- Follows names from a place, which comes with the directories that lead to it, the
innermost first. -/
def find (here : FileTree) (above : List FileTree) : List String → Except ReadFailure FileTree
  | [] => .ok here
  | name :: path =>
    match here with
    | file _ => .error .notADirectory
    | directory entries =>
      if name = "" ∨ name = "." then find here above path
      else if name = ".." then
        match above with
        | [] => find empty [] path
        | parent :: above => find parent above path
      else if nameLimit < name.utf8ByteSize then .error .nameTooLong
      else
        match Entries.get? name entries with
        | none => .error .notFound
        | some t => find t (here :: above) path

/-- The place that a path leads to. -/
def lookUp (t : FileTree) (path : String) : Except ReadFailure FileTree :=
  if '\x00' ∈ path.toList then .error .nulInName
  else if pathLimit ≤ path.utf8ByteSize then .error .nameTooLong
  else
    match names path with
    | "" :: r => find empty [] r
    | r => find t [] r

/-- The text of the file at a path. -/
def read (t : FileTree) (path : String) : Except ReadFailure String := do
  match ← t.lookUp path with
  | directory _ => .error .isADirectory
  | file content =>
    match String.fromUTF8? content with
    | some text => .ok text
    | none => .error .notUtf8

end FileTree

end CamelLint
