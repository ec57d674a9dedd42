import CamelLint.Text.Blank

/-! Type declarations as a host program hands them to a rule, the kinds they come
in, and the token lists by which a configuration names kinds. -/

namespace CamelLint

/-- The kinds of type declaration. -/
inductive DeclarationKind where
  | classDef
  | interfaceDef
  | enumDef
  | recordDef
  | annotationDef
  deriving DecidableEq, Repr

namespace DeclarationKind

def all : List DeclarationKind := [classDef, interfaceDef, enumDef, recordDef, annotationDef]

theorem mem_all (k : DeclarationKind) : k ∈ all := by cases k <;> decide

/-- The word that names a kind in a configuration. -/
def token : DeclarationKind → String
  | classDef => "CLASS_DEF"
  | interfaceDef => "INTERFACE_DEF"
  | enumDef => "ENUM_DEF"
  | recordDef => "RECORD_DEF"
  | annotationDef => "ANNOTATION_DEF"

theorem token_injective {j k : DeclarationKind} (h : j.token = k.token) : j = k := by
  cases j <;> cases k <;> simp_all [token]

def ofToken? (word : String) : Option DeclarationKind := all.find? (·.token = word)

@[simp] theorem ofToken?_token (k : DeclarationKind) : ofToken? k.token = some k := by
  cases k <;> decide

theorem ofToken?_eq_some_iff {word : String} {k : DeclarationKind} :
    ofToken? word = some k ↔ word = k.token := by
  constructor
  · intro h
    have hk : k.token = word := by simpa using List.find?_some h
    exact hk.symm
  · rintro rfl
    exact ofToken?_token k

/-- The list without the repetitions after a first occurrence. -/
def keepFirst : List DeclarationKind → List DeclarationKind
  | [] => []
  | k :: r => k :: (keepFirst r).filter (· ≠ k)

/-- The kinds that a comma-separated list names: blanks around a token do not count,
unknown words are passed over, and a kind stands where it is named first. -/
def ofTokens (tokens : String) : List DeclarationKind :=
  keepFirst ((Text.segments ',' tokens.toList).filterMap fun s =>
    ofToken? (String.ofList (Text.trim s)))

end DeclarationKind

/-- A declaration, located by whatever the host uses for places. -/
structure Declaration (Location : Type) where
  name : Option String
  kind : DeclarationKind
  location : Location

end CamelLint
