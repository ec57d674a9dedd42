import CamelLint.Text.Blank
import CamelLint.Toml.ModuleList
import CamelLint.Xml.ModuleTree

/-! Loading configurations: from a text in a given format, and from a file, whose name
decides the format before anything is read. -/

namespace CamelLint

namespace Format

/-- The part of a path that names a file: the last of the segments between slashes, empty
segments and single dots apart. A double dot names no file. -/
def fileName? (path : String) : Option (List Char) :=
  let segments := (Text.segments '/' path.toList).filter fun s => s ≠ [] ∧ s ≠ ['.']
  match segments.getLast? with
  | some name => if name = ['.', '.'] then none else some name
  | none => none

/-- What follows the last dot of a name, unless that dot comes first. -/
def extension? (name : List Char) : Option (List Char) :=
  let (reversed, rest) := name.reverse.span (· ≠ '.')
  match rest with
  | [] | [_] => none
  | _ => some reversed.reverse

/-- The format that a path asks for by its extension, in capitals or not. -/
def ofPath? (path : String) : Option Format :=
  match (fileName? path).bind extension? with
  | none => none
  | some extension =>
    let extension := extension.map Char.toLower
    if extension = "xml".toList then some xml
    else if extension = "toml".toList then some toml
    else none

end Format

namespace Config

/-- The configuration that a text writes in a format. -/
def parse (format : Format) (source : String) : Except ConfigError Config :=
  let parsed := match format with
    | .xml => Xml.parseConfig source
    | .toml => Toml.parseConfig source
  parsed.mapError (.document format)

/-- The configuration in the file at a path, given how files are read. -/
def load (read : String → Except ReadFailure String) (path : String) :
    Except ConfigError Config :=
  match Format.ofPath? path with
  | none => .error (.unsupportedFormat path)
  | some format =>
    match read path with
    | .error cause => .error (.unreadable path cause)
    | .ok source => parse format source

end Config

end CamelLint
