import CamelLint.Config.Basic
import CamelLint.Proofs.Casing
import CamelLint.Proofs.Tokens
import CamelLint.Rule.NamingPattern
import Mathlib.Data.Set.Defs

/-! The configured rule, from the text of its property to its findings. It reports a
name exactly when two neighbouring characters of the name are uppercase and the kind
is looked at; and of a whole configuration only the set of kinds matters that the
first module of the rule names. -/

namespace CamelLint.Rule.NamingPattern

variable {Location : Type}

/-- The property `tokens` is there and names the kind. -/
def NamesKind (properties : Entries String) (k : DeclarationKind) : Prop :=
  ∃ tokens, properties.get? "tokens" = some tokens ∧ k.IsNamedIn tokens

/-! ### The kinds of a configured rule -/

theorem mem_configuredKinds_iff {m : Metadata} {p : Entries String} {k : DeclarationKind} :
    k ∈ configuredKinds m p ↔ k ∈ m.scope ∧ NamesKind p k := by
  unfold configuredKinds NamesKind
  cases p.get? "tokens" with
  | none => simp
  | some tokens => simp [DeclarationKind.mem_ofTokens_iff, and_comm]

/-- The fall-back to the whole scope makes the kinds depend on all names at once. -/
theorem mem_kinds_ofConfig_iff {m : Metadata} {p : Entries String} {k : DeclarationKind} :
    k ∈ (ofConfig m p).kinds ↔
      k ∈ m.scope ∧ (NamesKind p k ∨ ∀ j ∈ m.scope, ¬ NamesKind p j) := by
  unfold ofConfig
  cases h : configuredKinds m p with
  | nil =>
    have hnone : ∀ j ∈ m.scope, ¬ NamesKind p j := by
      intro j hj hn
      have hmem := mem_configuredKinds_iff.mpr ⟨hj, hn⟩
      rw [h] at hmem
      exact List.not_mem_nil hmem
    exact ⟨fun hk => ⟨hk, .inr hnone⟩, fun hk => hk.1⟩
  | cons a r =>
    have ha : a ∈ m.scope ∧ NamesKind p a := by
      rw [← mem_configuredKinds_iff, h]
      exact List.mem_cons_self
    change k ∈ a :: r ↔ _
    rw [← h, mem_configuredKinds_iff]
    constructor
    · rintro ⟨hk, hn⟩
      exact ⟨hk, .inl hn⟩
    · rintro ⟨hk, hn | hnone⟩
      · exact ⟨hk, hn⟩
      · exact absurd ha.2 (hnone a ha.1)

@[simp] theorem metadata_ofConfig (m : Metadata) (p : Entries String) :
    (ofConfig m p).metadata = m := by
  unfold ofConfig
  split <;> rfl

/-! ### What a rule finds -/

theorem outcome_eq_violation_iff {rule : NamingPattern} {d : Declaration Location} {n : String} :
    rule.outcome d = .violation n ↔
      d.name = some n ∧ Casing.HasUppercasePair n.toList ∧ d.kind ∈ rule.kinds := by
  rw [← Casing.classify_eq_rejected_iff_pair]
  unfold outcome
  split_ifs with hk
  · cases d.name with
    | none => simp
    | some name =>
      cases hc : Casing.classify name with
      | accepted =>
        simp only [hc, reduceCtorEq, Option.some.injEq, false_iff]
        rintro ⟨rfl, h, -⟩
        rw [hc] at h
        cases h
      | rejected =>
        simp only [hc, Outcome.violation.injEq, Option.some.injEq, hk, and_true]
        constructor
        · rintro rfl
          exact ⟨rfl, hc⟩
        · exact And.left
  · simp [hk]

theorem check_eq_some_iff {rule : NamingPattern} {d : Declaration Location}
    {f : Finding Location} :
    rule.check d = some f ↔
      ∃ n, rule.outcome d = .violation n ∧
        f = ⟨⟨id, message⟩, rule.metadata.severity, d.location, n⟩ := by
  unfold check
  cases rule.outcome d with
  | violation n =>
    simp only [Option.some.injEq, Outcome.violation.injEq]
    constructor
    · intro h
      exact ⟨n, rfl, h.symm⟩
    · rintro ⟨n', rfl, h⟩
      exact h.symm
  | _ => simp

/-- A configured rule reports a declaration when its name has an uppercase pair, its kind is
in scope, and the property `tokens` names this kind or no kind in scope at all; the finding
is then fixed in all its parts. -/
theorem check_ofConfig_eq_some_iff (m : Metadata) (p : Entries String)
    (d : Declaration Location) (f : Finding Location) :
    (ofConfig m p).check d = some f ↔
      (∃ n, d.name = some n ∧ Casing.HasUppercasePair n.toList ∧ f.subject = n) ∧
      d.kind ∈ m.scope ∧
      (NamesKind p d.kind ∨ ∀ k ∈ m.scope, ¬ NamesKind p k) ∧
      f.rule = "NamingPattern" ∧ f.message = "Class naming must use CamelCase" ∧
      f.severity = m.severity ∧ f.location = d.location := by
  rw [check_eq_some_iff]
  simp only [outcome_eq_violation_iff, mem_kinds_ofConfig_iff, metadata_ofConfig]
  constructor
  · rintro ⟨n, ⟨hn, hp, hs, hk⟩, rfl⟩
    exact ⟨⟨n, hn, hp, rfl⟩, hs, hk, rfl, rfl, rfl, rfl⟩
  · rintro ⟨⟨n, hn, hp, hf⟩, hs, hk, hr, hm, hv, hl⟩
    refine ⟨n, ⟨hn, hp, hs, hk⟩, ?_⟩
    obtain ⟨⟨name, body⟩, severity, location, subject⟩ := f
    simp only [Finding.rule, Finding.message] at hr hm hv hl hf
    rw [hr, hm, hv, hl, hf]
    rfl

/-! ### What of a configuration matters -/

/-- The kinds that the first module of the rule names in its property `tokens`. -/
def namedKinds (c : Config) : Set DeclarationKind :=
  {k | ∃ before m after, c.modules = before ++ m :: after ∧
    (∀ x ∈ before, x.name ≠ "NamingPattern") ∧ m.name = "NamingPattern" ∧
    NamesKind m.properties k}

/-- The rule that a configuration gives, with the metadata of the library. -/
def ofConfiguration (c : Config) : NamingPattern :=
  ofConfig .namingPattern (c.propertiesFor id)

theorem mem_namedKinds_iff {c : Config} {k : DeclarationKind} :
    k ∈ namedKinds c ↔ NamesKind (c.propertiesFor id) k := by
  unfold Config.propertiesFor
  constructor
  · rintro ⟨before, m, after, hc, hb, hm, hk⟩
    have hfirst : c.module? id = some m := by
      rw [Config.module?, List.find?_eq_some_iff_append]
      refine ⟨decide_eq_true hm, before, after, hc, ?_⟩
      intro x hx
      rw [Bool.not_eq_true', decide_eq_false_iff_not]
      exact hb x hx
    rw [hfirst]
    exact hk
  · intro hk
    cases hfirst : c.module? id with
    | none =>
      rw [hfirst] at hk
      obtain ⟨tokens, ht, -⟩ := hk
      cases ht
    | some m =>
      rw [hfirst] at hk
      rw [Config.module?, List.find?_eq_some_iff_append] at hfirst
      obtain ⟨hm, before, after, hc, hb⟩ := hfirst
      refine ⟨before, m, after, hc, ?_, of_decide_eq_true hm, hk⟩
      intro x hx
      have hx' := hb x hx
      rw [Bool.not_eq_true', decide_eq_false_iff_not] at hx'
      exact hx'

@[simp] theorem metadata_ofConfiguration (c : Config) :
    (ofConfiguration c).metadata = .namingPattern := metadata_ofConfig _ _

/-- A check depends on the kinds of the rule as a set only. -/
theorem outcome_congr {r₁ r₂ : NamingPattern} (h : ∀ k, k ∈ r₁.kinds ↔ k ∈ r₂.kinds)
    (d : Declaration Location) : r₁.outcome d = r₂.outcome d := by
  simp only [outcome, h d.kind]

theorem outcome_ofConfiguration_eq {c₁ c₂ : Config} (h : namedKinds c₁ = namedKinds c₂)
    (d : Declaration Location) :
    (ofConfiguration c₁).outcome d = (ofConfiguration c₂).outcome d := by
  have hn : ∀ k, NamesKind (c₁.propertiesFor id) k ↔ NamesKind (c₂.propertiesFor id) k := by
    intro k
    rw [← mem_namedKinds_iff, ← mem_namedKinds_iff, h]
  apply outcome_congr
  intro k
  simp only [ofConfiguration, mem_kinds_ofConfig_iff, hn]

/-- Configurations that name the same kinds give rules that cannot be told apart: not by a
finding, not by the log, and not by a sink after any declarations. -/
theorem reports_eq_of_namedKinds_eq {c₁ c₂ : Config} (h : namedKinds c₁ = namedKinds c₂) :
    (∀ d : Declaration Location,
      (ofConfiguration c₁).check d = (ofConfiguration c₂).check d ∧
      (ofConfiguration c₁).event d = (ofConfiguration c₂).event d) ∧
    ∀ (sink : Sink Location) (ds : List (Declaration Location)),
      (ofConfiguration c₁).reportAll sink ds = (ofConfiguration c₂).reportAll sink ds := by
  have hcheck : ∀ d : Declaration Location,
      (ofConfiguration c₁).check d = (ofConfiguration c₂).check d := by
    intro d
    simp only [check, outcome_ofConfiguration_eq h d, metadata_ofConfiguration]
  refine ⟨fun d => ⟨hcheck d, ?_⟩, ?_⟩
  · simp only [event, outcome_ofConfiguration_eq h d]
  · intro sink ds
    have hreport : (ofConfiguration c₁).report =
        ((ofConfiguration c₂).report : Sink Location → Declaration Location → Sink Location) := by
      funext s d
      simp only [report, hcheck d]
    rw [reportAll, reportAll, hreport]

/-- A configuration of the rule alone. -/
def bareConfig : Config := ⟨[⟨"NamingPattern", [("tokens", "CLASS_DEF,ENUM_DEF")]⟩]⟩

/-- The same kinds among all that has no effect: a module of another name in front, a later
module of the rule, another property, and tokens reordered, padded, repeated and unknown. -/
def disguisedConfig : Config :=
  ⟨[⟨"Checker", [("tokens", "RECORD_DEF")]⟩,
    ⟨"NamingPattern", [("a", "b"), ("tokens", " ENUM_DEF,,METHOD_DEF,\tCLASS_DEF ,ENUM_DEF")]⟩,
    ⟨"NamingPattern", [("tokens", "ANNOTATION_DEF")]⟩]⟩

theorem reports_eq_disguised :
    namedKinds bareConfig = namedKinds disguisedConfig ∧
    ∀ d : Declaration Nat,
      (ofConfiguration bareConfig).check d = (ofConfiguration disguisedConfig).check d := by
  have hmem : ∀ (c : Config) (k : DeclarationKind),
      k ∈ namedKinds c ↔ k ∈ configuredKinds .namingPattern (c.propertiesFor id) := by
    intro c k
    rw [mem_namedKinds_iff, mem_configuredKinds_iff]
    exact ⟨fun h => ⟨DeclarationKind.mem_all k, h⟩, And.right⟩
  have hk : namedKinds bareConfig = namedKinds disguisedConfig := by
    apply Set.ext
    intro k
    rw [hmem, hmem]
    cases k <;> decide +kernel
  exact ⟨hk, fun d => ((reports_eq_of_namedKinds_eq hk).1 d).1⟩

end CamelLint.Rule.NamingPattern
