import CamelLint.Category
import CamelLint.Finding
import CamelLint.Json.Value
import CamelLint.Misfit
import CamelLint.Priority

/-! The JSON forms of findings and their parts, written and read. A choice is written
as its name, and also read from an object that maps its name to null. A record
is written as an object, in which further members are ignored, and also read from
the array of its fields. Of several misfits in an object the one under the first
name in ascending order is reported, and a missing field only if there is none. -/

namespace CamelLint.Json

def found : Json → Found
  | null => .null
  | bool b => .boolean b
  | integer n => .integer n
  | float x => .float x
  | string s => .text s
  | array _ => .sequence
  | object _ => .map

def decodeString : Json → Except Misfit String
  | string s => .ok s
  | v => .error (.wrongType v.found "a string")

/-! ### Choices -/

/-- Reads one of the choices `all`, named by `label`. -/
def decodeChoice {α : Type} (all : List α) (label : α → String) (v : Json) : Except Misfit α :=
  let named (name : String) : Except Misfit α :=
    match all.find? (label · = name) with
    | some a => .ok a
    | none => .error (.unknownVariant name (all.map label))
  match v with
  | string name => named name
  | object [(name, content)] => do
    let a ← named name
    match content with
    | null => .ok a
    | c => .error (.wrongType c.found "unit")
  | object _ => .error (.wrongValue .map "map with a single key")
  | v => .error (.wrongType v.found "string or map")

def decodeSeverity : Json → Except Misfit Severity := decodeChoice Severity.all Severity.label

def encodeSeverity (s : Severity) : Json := string s.label

def decodeCategory : Json → Except Misfit Category := decodeChoice Category.all Category.label

def encodeCategory (c : Category) : Json := string c.label

/-! ### Priorities -/

/-- Any byte is read as a priority, on the scale or not. -/
def decodePriority : Json → Except Misfit Priority
  | integer n =>
    if 0 ≤ n ∧ n < 256 then .ok ⟨n.toNat.toUInt8⟩ else .error (.wrongValue (.integer n) "u8")
  | v => .error (.wrongType v.found "u8")

def encodePriority (p : Priority) : Json := integer p.toNat

/-! ### Records -/

def require {α : Type} (name : String) : Option α → Except Misfit α
  | some a => .ok a
  | none => .error (.missingField name)

/-- Fields of a finding's kind that have been read. -/
structure KindFields where
  name : Option String := none
  body : Option String := none

def KindFields.read (fields : KindFields) (member : String × Json) : Except Misfit KindFields :=
  match member.1 with
  | "name" => do return { fields with name := some (← decodeString member.2) }
  | "body" => do return { fields with body := some (← decodeString member.2) }
  | _ => .ok fields

def decodeKind : Json → Except Misfit FindingKind
  | object members => do
    let fields ← members.foldlM KindFields.read {}
    let name ← require "name" fields.name
    let body ← require "body" fields.body
    return ⟨name, body⟩
  | array items => do
    let short (n : Nat) : Misfit := .wrongLength n "struct FindingKind with 2 elements"
    match items with
    | [] => .error (short 0)
    | a :: r =>
      let name ← decodeString a
      match r with
      | [] => .error (short 1)
      | b :: r =>
        let body ← decodeString b
        if r.isEmpty then return ⟨name, body⟩
        else .error (.wrongLength items.length "fewer elements in array")
  | v => .error (.wrongType v.found "struct FindingKind")

def encodeKind (k : FindingKind) : Json := object [("body", string k.body), ("name", string k.name)]

/-- Fields of a finding that have been read. -/
structure FindingFields where
  kind : Option FindingKind := none
  severity : Option Severity := none
  location : Option Json := none
  subject : Option String := none

def FindingFields.read (fields : FindingFields) (member : String × Json) :
    Except Misfit FindingFields :=
  match member.1 with
  | "kind" => do return { fields with kind := some (← decodeKind member.2) }
  | "severity" => do return { fields with severity := some (← decodeSeverity member.2) }
  | "location" => .ok { fields with location := some member.2 }
  | "subject" => do return { fields with subject := some (← decodeString member.2) }
  | _ => .ok fields

def decodeFinding : Json → Except Misfit (Finding Json)
  | object members => do
    let fields ← members.foldlM FindingFields.read {}
    let kind ← require "kind" fields.kind
    let severity ← require "severity" fields.severity
    let location ← require "location" fields.location
    let subject ← require "subject" fields.subject
    return ⟨kind, severity, location, subject⟩
  | array items => do
    let short (n : Nat) : Misfit := .wrongLength n "struct Finding with 4 elements"
    match items with
    | [] => .error (short 0)
    | a :: r =>
      let kind ← decodeKind a
      match r with
      | [] => .error (short 1)
      | b :: r =>
        let severity ← decodeSeverity b
        match r with
        | [] => .error (short 2)
        | location :: r =>
          match r with
          | [] => .error (short 3)
          | d :: r =>
            let subject ← decodeString d
            if r.isEmpty then return ⟨kind, severity, location, subject⟩
            else .error (.wrongLength items.length "fewer elements in array")
  | v => .error (.wrongType v.found "struct Finding")

def encodeFinding (f : Finding Json) : Json :=
  object [("kind", encodeKind f.kind), ("location", f.location),
    ("severity", encodeSeverity f.severity), ("subject", string f.subject)]

/-! ### Sinks -/

/-- Equality of findings, where the two floating point zeros of a location are equal. -/
def sameFinding (f g : Finding Json) : Bool :=
  f.kind = g.kind && f.severity = g.severity && f.location.same g.location && f.subject = g.subject

/-- Whether a sink holds a finding that is equal to this one. -/
def sinkHas (sink : Sink Json) (f : Finding Json) : Bool := sink.any (sameFinding f)

end CamelLint.Json
