import CamelLint.Proofs.ConfiguredRule
import Mathlib.Data.List.Forall2

/-! Runs of the rule over many declarations. A run appends what the single checks
give, in the order of the declarations; so it may be cut into pieces that are reported
apart and put together again. A configured rule finds what the unconfigured rule finds
in the declarations of its kinds, and nothing else. -/

namespace CamelLint.Rule.NamingPattern

variable {Location : Type}

/-! ### Runs -/

theorem report_eq_append (rule : NamingPattern) (sink : Sink Location)
    (d : Declaration Location) : rule.report sink d = sink ++ (rule.check d).toList := by
  unfold report
  cases rule.check d with
  | none => exact (List.append_nil sink).symm
  | some f => rfl

theorem reportAll_eq_append (rule : NamingPattern) (sink : Sink Location)
    (ds : List (Declaration Location)) :
    rule.reportAll sink ds = sink ++ ds.filterMap rule.check := by
  induction ds generalizing sink with
  | nil => exact (List.append_nil sink).symm
  | cons d r ih =>
    calc rule.reportAll sink (d :: r)
      _ = rule.reportAll (rule.report sink d) r := rfl
      _ = sink ++ (rule.check d).toList ++ r.filterMap rule.check := by rw [ih, report_eq_append]
      _ = sink ++ (d :: r).filterMap rule.check := by
        simp only [List.filterMap_eq_flatMap_toList, List.flatMap_cons, List.append_assoc]

/-- The finding has the place and the name of the declaration. -/
def IsAbout (f : Finding Location) (d : Declaration Location) : Prop :=
  f.location = d.location ∧ d.name = some f.subject

theorem isAbout_of_check {rule : NamingPattern} {d : Declaration Location}
    {f : Finding Location} (h : rule.check d = some f) : IsAbout f d := by
  obtain ⟨n, ho, rfl⟩ := check_eq_some_iff.mp h
  exact ⟨rfl, (outcome_eq_violation_iff.mp ho).1⟩

/-- The findings of a run stand one by one against the declarations that raise one. -/
theorem forall₂_isAbout_filterMap (rule : NamingPattern) (ds : List (Declaration Location)) :
    List.Forall₂ (fun d f => rule.check d = some f ∧ IsAbout f d)
      (ds.filter fun d => (rule.check d).isSome) (ds.filterMap rule.check) := by
  induction ds with
  | nil => exact .nil
  | cons d r ih =>
    cases h : rule.check d with
    | none =>
      rw [List.filterMap_cons_none h, List.filter_cons_of_neg (by simp [h])]
      exact ih
    | some f =>
      rw [List.filterMap_cons_some h, List.filter_cons_of_pos (by simp [h])]
      exact .cons ⟨h, isAbout_of_check h⟩ ih

theorem flatten_map_reportAll (rule : NamingPattern)
    (chunks : List (List (Declaration Location))) :
    (chunks.map (rule.reportAll [])).flatten = chunks.flatten.filterMap rule.check := by
  have hchunk : rule.reportAll [] =
      fun ds : List (Declaration Location) => ds.filterMap rule.check := by
    funext ds
    exact reportAll_eq_append rule [] ds
  rw [hchunk, List.filterMap_flatten]

/-- A run keeps the sink and appends the findings of the declarations, in their order, one
for each declaration that raises one. The same findings come out of any division into
chunks that are reported apart, and another order of the declarations only reorders
them. -/
theorem reportAll_divided (rule : NamingPattern) (sink : Sink Location)
    (ds : List (Declaration Location)) :
    rule.reportAll sink ds = sink ++ ds.filterMap rule.check ∧
    List.Forall₂ (fun d f => rule.check d = some f ∧ IsAbout f d)
      (ds.filter fun d => (rule.check d).isSome) (ds.filterMap rule.check) ∧
    (∀ chunks : List (List (Declaration Location)), chunks.flatten = ds →
      (chunks.map (rule.reportAll [])).flatten = ds.filterMap rule.check) ∧
    ∀ ds' : List (Declaration Location), ds'.Perm ds →
      ∃ found, rule.reportAll sink ds' = sink ++ found ∧
        found.Perm (ds.filterMap rule.check) := by
  refine ⟨reportAll_eq_append rule sink ds, forall₂_isAbout_filterMap rule ds, ?_, ?_⟩
  · rintro chunks rfl
    exact flatten_map_reportAll rule chunks
  · intro ds' h
    exact ⟨ds'.filterMap rule.check, reportAll_eq_append rule sink ds', h.filterMap rule.check⟩

/-- Declarations of which the first and the third are reported. -/
def fourDeclarations : List (Declaration Nat) :=
  [⟨some "XMLParser", .classDef, 0⟩, ⟨none, .enumDef, 1⟩, ⟨some "HTTPServer", .recordDef, 2⟩,
    ⟨some "Parser", .classDef, 3⟩]

/-- The four declarations in three chunks, one of them empty, and in reverse after an earlier
finding. -/
theorem reportAll_divided_four :
    let rule := ofMetadata .namingPattern
    let earlier : Sink Nat := [⟨⟨"Length", "Name too long"⟩, .error, 9, "Parser"⟩]
    let chunks := [fourDeclarations.take 1, [], fourDeclarations.drop 1]
    chunks.flatten = fourDeclarations ∧ fourDeclarations.reverse.Perm fourDeclarations ∧
    (fourDeclarations.filterMap rule.check).map (·.subject) = ["XMLParser", "HTTPServer"] ∧
    (chunks.map (rule.reportAll [])).flatten = fourDeclarations.filterMap rule.check ∧
    ∃ found, rule.reportAll earlier fourDeclarations.reverse = earlier ++ found ∧
      found.Perm (fourDeclarations.filterMap rule.check) := by
  intro rule earlier chunks
  have hc : chunks.flatten = fourDeclarations := rfl
  have hp : fourDeclarations.reverse.Perm fourDeclarations := List.reverse_perm _
  obtain ⟨-, -, hdiv, hperm⟩ := reportAll_divided rule earlier fourDeclarations
  exact ⟨hc, hp, by decide +kernel, hdiv chunks hc, hperm _ hp⟩

/-! ### Kinds that a host may leave out -/

theorem check_eq_none_of_kind {rule : NamingPattern} {d : Declaration Location}
    (h : d.kind ∉ rule.kinds) : rule.check d = none := by
  simp [check, outcome, h]

/-- Rules of the same metadata agree on a declaration that both look at. -/
theorem check_eq_of_kind {r₁ r₂ : NamingPattern} {d : Declaration Location}
    (hm : r₁.metadata = r₂.metadata) (h₁ : d.kind ∈ r₁.kinds) (h₂ : d.kind ∈ r₂.kinds) :
    r₁.check d = r₂.check d := by
  simp only [check, outcome, h₁, h₂, hm]

/-- Where one rule looks at some of the kinds of another, it finds what the other finds in the
declarations of these kinds. -/
theorem filterMap_check_filter {r₁ r₂ : NamingPattern} (hm : r₁.metadata = r₂.metadata)
    (hk : r₁.kinds ⊆ r₂.kinds) (ds : List (Declaration Location)) :
    (ds.filter fun d => d.kind ∈ r₁.kinds).filterMap r₂.check = ds.filterMap r₁.check := by
  rw [List.filterMap_filter]
  apply List.filterMap_congr
  intro d _
  by_cases h : d.kind ∈ r₁.kinds
  · rw [if_pos (decide_eq_true h)]
    exact (check_eq_of_kind hm h (hk h)).symm
  · rw [if_neg (by simpa using h)]
    exact (check_eq_none_of_kind h).symm

/-- The fall-back does not leave the scope either. -/
theorem kinds_ofConfig_subset (m : Metadata) (p : Entries String) :
    (ofConfig m p).kinds ⊆ (ofMetadata m).kinds :=
  fun _ h => (mem_kinds_ofConfig_iff.mp h).1

/-- A host may pass on only the declarations of the kinds that a configured rule looks at, and
may even pass these to the unconfigured rule: the sink is the same. So a configuration takes
findings away and never adds one. -/
theorem reportAll_ofConfig_filtered (m : Metadata) (p : Entries String) (sink : Sink Location)
    (ds : List (Declaration Location)) :
    let rule := ofConfig m p
    let relevant := ds.filter fun d => d.kind ∈ rule.kinds
    rule.reportAll sink relevant = rule.reportAll sink ds ∧
    (ofMetadata m).reportAll sink relevant = rule.reportAll sink ds ∧
    (rule.reportAll sink ds).Sublist ((ofMetadata m).reportAll sink ds) ∧
    ∀ d : Declaration Location, rule.check d = none ∨ rule.check d = (ofMetadata m).check d := by
  intro rule relevant
  have hm : rule.metadata = (ofMetadata m).metadata := metadata_ofConfig m p
  have hk : rule.kinds ⊆ (ofMetadata m).kinds := kinds_ofConfig_subset m p
  -- the findings are those of the unconfigured rule on a sublist of the declarations
  have hdefault : relevant.filterMap (ofMetadata m).check = ds.filterMap rule.check :=
    filterMap_check_filter hm hk ds
  simp only [reportAll_eq_append, List.append_sublist_append_left]
  refine ⟨?_, ?_, ?_, ?_⟩
  · rw [filterMap_check_filter rfl (List.Subset.refl _) ds]
  · rw [hdefault]
  · rw [← hdefault]
    exact List.filter_sublist.filterMap _
  · intro d
    by_cases h : d.kind ∈ rule.kinds
    · exact .inr (check_eq_of_kind hm h (hk h))
    · exact .inl (check_eq_none_of_kind h)

end CamelLint.Rule.NamingPattern
