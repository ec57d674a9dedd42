import CamelLint.Proofs.Reporting

/-! The log of a run. A check ends in one of four ways, and each of them can be told from
the line that it writes, or from there being none. Over a whole run, the lines about
rejected names are the findings, name by name and in the same order. -/

namespace CamelLint.Rule

/-- The value of a field of a line. -/
def LogEvent.field? (e : LogEvent) (name : String) : Option String := Entries.get? name e.fields

namespace NamingPattern

variable {Location : Type}

/-- The lines that a check writes. -/
def lines (rule : NamingPattern) (d : Declaration Location) : List LogEvent :=
  (rule.event d).toList

/-- The lines that a run over the declarations writes. -/
def log (rule : NamingPattern) (ds : List (Declaration Location)) : List LogEvent :=
  ds.flatMap rule.lines

/-- The field `name` of each line that speaks of a rejected name. -/
def rejectedNames (events : List LogEvent) : List (Option String) :=
  (events.filter (·.level = .debug)).map (·.field? "name")

theorem rejectedNames_append (es fs : List LogEvent) :
    rejectedNames (es ++ fs) = rejectedNames es ++ rejectedNames fs := by
  simp [rejectedNames]

/-! ### One check -/

/-- The four ways in which a check ends, and when it does. -/
theorem outcome_cases (rule : NamingPattern) (d : Declaration Location) :
    (d.kind ∉ rule.kinds ∧ rule.outcome d = .otherKind d.kind) ∨
    (d.kind ∈ rule.kinds ∧ d.name = none ∧ rule.outcome d = .unnamed) ∨
    (d.kind ∈ rule.kinds ∧ ∃ n, d.name = some n ∧ ¬ Casing.HasUppercasePair n.toList ∧
      rule.outcome d = .conforming) ∨
    (d.kind ∈ rule.kinds ∧ ∃ n, d.name = some n ∧ Casing.HasUppercasePair n.toList ∧
      rule.outcome d = .violation n) := by
  by_cases hk : d.kind ∈ rule.kinds
  · cases hn : d.name with
    | none => exact .inr (.inl ⟨hk, rfl, by simp [outcome, hk, hn]⟩)
    | some n =>
      simp only [← Casing.classify_eq_rejected_iff_pair]
      cases hc : Casing.classify n with
      | accepted =>
        exact .inr (.inr (.inl ⟨hk, n, rfl, by simp [hc], by simp [outcome, hk, hn, hc]⟩))
      | rejected => exact .inr (.inr (.inr ⟨hk, n, rfl, hc, by simp [outcome, hk, hn, hc]⟩))
  · exact .inl ⟨hk, by simp [outcome, hk]⟩

/-- What can be told from the lines of a check about its declaration. -/
structure TellsOf (rule : NamingPattern) (d : Declaration Location) (events : List LogEvent) :
    Prop where
  atMostOne : events.length ≤ 1
  otherKind : ∀ token, (∃ e ∈ events, e.level = .trace ∧ e.field? "kind" = some token) ↔
    d.kind ∉ rule.kinds ∧ token = d.kind.token
  unnamed : (∃ e ∈ events, e.level = .trace ∧ e.field? "kind" = none) ↔
    d.kind ∈ rule.kinds ∧ d.name = none
  conforming : events = [] ↔
    d.kind ∈ rule.kinds ∧ ∃ n, d.name = some n ∧ ¬ Casing.HasUppercasePair n.toList
  violation : ∀ n, (∃ e ∈ events, e.level = .debug ∧ e.field? "name" = some n) ↔
    d.kind ∈ rule.kinds ∧ d.name = some n ∧ Casing.HasUppercasePair n.toList

theorem tellsOf_lines (rule : NamingPattern) (d : Declaration Location) :
    TellsOf rule d (rule.lines d) := by
  rcases outcome_cases rule d with
    ⟨hk, ho⟩ | ⟨hk, hn, ho⟩ | ⟨hk, n, hn, hp, ho⟩ | ⟨hk, n, hn, hp, ho⟩
  · constructor <;> simp [lines, event, ho, hk, LogEvent.field?, Entries.get?, eq_comm]
  · constructor <;> simp [lines, event, ho, hk, hn, LogEvent.field?, Entries.get?]
  · constructor <;> simp [lines, event, ho, hk, hn, hp]
  · constructor <;> simp [lines, event, ho, hk, hn, hp, LogEvent.field?, Entries.get?]

/-- A check writes the name that it finds something against, and no other. -/
theorem rejectedNames_lines (rule : NamingPattern) (d : Declaration Location) :
    rejectedNames (rule.lines d) = (rule.check d).toList.map fun f => some f.subject := by
  unfold lines event check
  cases rule.outcome d <;> rfl

/-! ### A run -/

theorem rejectedNames_log (rule : NamingPattern) (ds : List (Declaration Location)) :
    rejectedNames (rule.log ds) = (ds.filterMap rule.check).map fun f => some f.subject := by
  induction ds with
  | nil => rfl
  | cons d r ih =>
    calc rejectedNames (rule.log (d :: r))
      _ = rejectedNames (rule.lines d) ++ rejectedNames (rule.log r) := rejectedNames_append _ _
      _ = ((rule.check d).toList ++ r.filterMap rule.check).map fun f => some f.subject := by
        rw [rejectedNames_lines, ih, List.map_append]
      _ = ((d :: r).filterMap rule.check).map fun f => some f.subject := by
        simp only [List.filterMap_eq_flatMap_toList, List.flatMap_cons]

/-- The log mirrors the findings: the names in it are the subjects of what a run appends to the
sink, and the lines of a single check tell how it ended. -/
theorem log_mirrors_findings (rule : NamingPattern) (sink : Sink Location)
    (ds : List (Declaration Location)) :
    (∃ found, rule.reportAll sink ds = sink ++ found ∧
      rejectedNames (rule.log ds) = found.map fun f => some f.subject) ∧
    ∀ d : Declaration Location, TellsOf rule d (rule.lines d) :=
  ⟨⟨ds.filterMap rule.check, reportAll_eq_append rule sink ds, rejectedNames_log rule ds⟩,
    tellsOf_lines rule⟩

end NamingPattern

end CamelLint.Rule
