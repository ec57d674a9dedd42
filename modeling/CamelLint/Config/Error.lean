import CamelLint.Misfit

/-! What can go wrong when a configuration is loaded, and how it is worded. -/

namespace CamelLint

/-- The formats of configuration files. -/
inductive Format where
  | xml
  | toml
  deriving DecidableEq, Repr

/-- A document breaks its format, or keeps it and does not have the shape of a
configuration. -/
inductive Fault where
  | malformed
  | misfit (cause : Misfit)
  deriving DecidableEq, Repr

/-- Why a file cannot be read. -/
inductive ReadFailure where
  | notFound
  | notADirectory
  | isADirectory
  | nameTooLong
  | nulInName
  | notUtf8
  /-- Any other failure, in the words of the system. -/
  | other (description : String)
  deriving DecidableEq, Repr

inductive ConfigError where
  | unsupportedFormat (path : String)
  | unreadable (path : String) (cause : ReadFailure)
  | document (format : Format) (fault : Fault)
  deriving DecidableEq, Repr

namespace Format

def display : Format → String
  | xml => "XML"
  | toml => "TOML"

end Format

namespace ReadFailure

def message : ReadFailure → String
  | notFound => "No such file or directory (os error 2)"
  | notADirectory => "Not a directory (os error 20)"
  | isADirectory => "Is a directory (os error 21)"
  | nameTooLong => "File name too long (os error 36)"
  | nulInName => "file name contained an unexpected NUL byte"
  | notUtf8 => "stream did not contain valid UTF-8"
  | other description => description

end ReadFailure

namespace ConfigError

/-- Numbers are written out without an exponent, a tie between two shortest forms going up. -/
def layout : Decimal.Layout := ⟨true, none⟩

def message : ConfigError → String
  | unsupportedFormat path =>
    String.join ["unsupported configuration format: ", path, " (expected .xml or .toml)"]
  | unreadable path cause => String.join ["failed to read ", path, ": ", cause.message]
  | document format .malformed => String.join ["invalid ", format.display, " configuration"]
  | document format (.misfit cause) =>
    String.join ["invalid ", format.display, " configuration: ", cause.message layout]

end ConfigError

end CamelLint
