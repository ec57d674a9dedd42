import CamelLint.Config.Load
import CamelLint.Proofs.Records
import CamelLint.Proofs.Toml.Order
import CamelLint.Proofs.Toml.Tables
import Mathlib

/-! Which tables are configurations. The key `module` holds an array of tables, each with a
string under `name` and a table of strings, or nothing, under `properties`. Nothing is
asked of other keys but that the numbers under them are in range. -/

namespace CamelLint.Toml

/-! ### Numbers in range -/

namespace Value

/-- No number in the value is out of range. -/
@[mk_iff]
structure InRange (v : Value) : Prop where
  integers : ¬ Occurs .badInteger v
  floats : ¬ Occurs .hugeFloat v

theorem inRange_array {items : List Value} {byHeaders : Bool} :
    (array items byHeaders).InRange ↔ ∀ v ∈ items, v.InRange := by
  simp [inRange_iff, forall_and]

theorem inRange_table {origin : Origin} {entries : Entries Value} :
    (table origin entries).InRange ↔ ∀ e ∈ entries, e.2.InRange := by
  simp [inRange_iff, forall_and]

mutual

theorem ignore_eq_ok_iff : ∀ v : Value, v.ignore = .ok () ↔ v.InRange
  | badInteger => ⟨nofun, fun h => absurd .self h.integers⟩
  | hugeFloat => ⟨nofun, fun h => absurd .self h.floats⟩
  | array items _ => (ignoreAll_eq_ok_iff items).trans inRange_array.symm
  | table _ entries => (ignoreEntries_eq_ok_iff entries).trans inRange_table.symm
  | string _ | integer _ | float _ | boolean _ | date _ => ⟨fun _ => ⟨nofun, nofun⟩, fun _ => rfl⟩

theorem ignoreAll_eq_ok_iff : ∀ items : List Value,
    ignoreAll items = .ok () ↔ ∀ v ∈ items, v.InRange
  | [] => by simp [ignoreAll]
  | v :: r => by
    rw [ignoreAll, bind_eq_ok_iff, List.forall_mem_cons, ← ignore_eq_ok_iff v,
      ← ignoreAll_eq_ok_iff r]
    exact ⟨fun ⟨_, hv, hr⟩ => ⟨hv, hr⟩, fun ⟨hv, hr⟩ => ⟨(), hv, hr⟩⟩

theorem ignoreEntries_eq_ok_iff : ∀ entries : List (String × Value),
    ignoreEntries entries = .ok () ↔ ∀ e ∈ entries, e.2.InRange
  | [] => by simp [ignoreEntries]
  | (_, v) :: r => by
    rw [ignoreEntries, bind_eq_ok_iff, List.forall_mem_cons, ← ignore_eq_ok_iff v,
      ← ignoreEntries_eq_ok_iff r]
    exact ⟨fun ⟨_, hv, hr⟩ => ⟨hv, hr⟩, fun ⟨hv, hr⟩ => ⟨(), hv, hr⟩⟩

end

/-! ### Texts and properties -/

theorem toText_eq_ok_iff {v : Value} {s : String} : v.toText = .ok s ↔ v = string s := by
  cases v <;> simp [toText]

theorem toProperties_table_eq_ok_iff {origin : Origin} {entries : Entries Value}
    {ps : Entries String} :
    (table origin entries).toProperties = .ok ps ↔ entries = ps.map asValue := by
  refine ⟨?_, fun h => h ▸ toProperties_asValue origin ps⟩
  intro h
  rw [toProperties] at h
  induction entries generalizing ps with
  | nil =>
    cases h
    rfl
  | cons e r ih =>
    rw [List.mapM_cons, bind_eq_ok_iff] at h
    obtain ⟨p, hp, h⟩ := h
    obtain ⟨qs, hqs, h⟩ := bind_eq_ok_iff.mp h
    obtain ⟨s, hs, hp⟩ := bind_eq_ok_iff.mp hp
    cases hp
    cases h
    rw [List.map_cons, ← ih hqs, asValue, ← toText_eq_ok_iff.mp hs]

/-- Dates apart, properties are in tables of strings. -/
theorem toProperties_eq_ok_iff {v : Value} (hv : ∀ text, v ≠ date text) {ps : Entries String} :
    v.toProperties = .ok ps ↔ ∃ origin, v = table origin (ps.map asValue) := by
  cases v with
  | table origin entries => simp [toProperties_table_eq_ok_iff]
  | date text => exact absurd rfl (hv text)
  | _ => simp [toProperties]

end Value

/-- Numbers under keys that are not known are in range. -/
def OthersInRange (known : List String) (t : Entries Value) : Prop :=
  ∀ e ∈ t, e.1 ∉ known → e.2.InRange

/-! ### Modules -/

/-- The properties that are under a key: none if nothing is. -/
inductive HoldsProperties : Option Value → Entries String → Prop where
  | none : HoldsProperties none []
  | table (origin : Origin) (ps : Entries String) :
      HoldsProperties (some (.table origin (ps.map asValue))) ps

/-- The table has the name and the properties of the module. -/
structure DescribesModule (t : Entries Value) (m : Module) : Prop where
  name : Entries.get? "name" t = some (.string m.name)
  properties : HoldsProperties (Entries.get? "properties" t) m.properties

namespace Value.ModuleFields

/-- What reading one entry does. -/
theorem read_cases {s s' : ModuleFields} {e : String × Value} (h : read s e = .ok s') :
    (e.1 = "name" ∧ ∃ a, e.2.toText = .ok a ∧ s' = { s with name := some a }) ∨
    (e.1 = "properties" ∧
      ∃ a, e.2.toProperties = .ok a ∧ s' = { s with properties := some a }) ∨
    (e.1 ∉ ["name", "properties"] ∧ e.2.ignore = .ok () ∧ s' = s) := by
  unfold read at h
  split at h
  · rename_i he
    obtain ⟨a, ha, hs⟩ := bind_eq_ok_iff.mp h
    cases hs
    exact .inl ⟨he, a, ha, rfl⟩
  · rename_i he
    obtain ⟨a, ha, hs⟩ := bind_eq_ok_iff.mp h
    cases hs
    exact .inr (.inl ⟨he, a, ha, rfl⟩)
  · rename_i hn hp
    obtain ⟨_, hi, hs⟩ := bind_eq_ok_iff.mp h
    cases hs
    exact .inr (.inr ⟨by simp_all, hi, rfl⟩)

theorem setsName : SetsField read "name" toText (·.name) where
  own h := by
    rcases read_cases h with ⟨-, a, ha, rfl⟩ | ⟨he, -⟩ | ⟨he, -⟩
    · exact ⟨a, ha, rfl⟩
    · simp at he
    · simp at he
  other he h := by
    rcases read_cases h with ⟨hn, -⟩ | ⟨-, a, -, rfl⟩ | ⟨-, -, rfl⟩
    · exact absurd hn he
    · rfl
    · rfl

theorem setsProperties : SetsField read "properties" toProperties (·.properties) where
  own h := by
    rcases read_cases h with ⟨he, -⟩ | ⟨-, a, ha, rfl⟩ | ⟨he, -⟩
    · simp at he
    · exact ⟨a, ha, rfl⟩
    · simp at he
  other he h := by
    rcases read_cases h with ⟨-, a, -, rfl⟩ | ⟨hp, -⟩ | ⟨-, -, rfl⟩
    · rfl
    · exact absurd hp he
    · rfl

theorem read_ok {e : String × Value} (hn : e.1 = "name" → ∃ a, e.2.toText = .ok a)
    (hp : e.1 = "properties" → ∃ a, e.2.toProperties = .ok a)
    (ho : e.1 ∉ ["name", "properties"] → e.2.InRange) (s : ModuleFields) :
    ∃ s', read s e = .ok s' := by
  unfold read
  split
  · rename_i he
    obtain ⟨a, ha⟩ := hn he
    exact ⟨_, by rw [ha]; rfl⟩
  · rename_i he
    obtain ⟨a, ha⟩ := hp he
    exact ⟨_, by rw [ha]; rfl⟩
  · rename_i hn hp
    exact ⟨s, by rw [(ignore_eq_ok_iff _).mpr (ho (by simp_all))]; rfl⟩

end Value.ModuleFields

section Tables

variable {t : Entries Value} {fields : Value.ModuleFields} {origin : Origin}

theorem name_eq_some_iff (ht : (t.map (·.1)).Nodup)
    (hf : t.foldlM Value.ModuleFields.read {} = .ok fields) {s : String} :
    fields.name = some s ↔ Entries.get? "name" t = some (.string s) := by
  rw [Value.ModuleFields.setsName.get_eq_some_iff ht hf rfl, Entries.get?_eq_some_iff ht]
  simp only [Value.toText_eq_ok_iff, exists_eq_right]

end Tables

/-! ### Documents -/

/-- What one entry of a document's table does to the modules read so far. -/
def readEntry (modules : List Module) (e : String × Value) : Except Misfit (List Module) :=
  if e.1 = "module" then e.2.toModules
  else do
    e.2.ignore
    return modules

theorem modulesOf_eq_foldlM (root : Entries Value) : modulesOf root = root.foldlM readEntry [] :=
  rfl

theorem readEntry_cases {ms ms' : List Module} {e : String × Value}
    (h : readEntry ms e = .ok ms') :
    (e.1 = "module" ∧ e.2.toModules = .ok ms') ∨
    (e.1 ≠ "module" ∧ e.2.InRange ∧ ms' = ms) := by
  unfold readEntry at h
  split_ifs at h with he
  · exact .inl ⟨he, h⟩
  · obtain ⟨_, hi, hs⟩ := bind_eq_ok_iff.mp h
    cases hs
    exact .inr ⟨he, (Value.ignore_eq_ok_iff e.2).mp hi, rfl⟩

theorem setsModules : SetsField readEntry "module" Value.toModules some where
  own h := by
    rcases readEntry_cases h with ⟨-, hv⟩ | ⟨he, -⟩
    · exact ⟨_, hv, rfl⟩
    · exact absurd rfl he
  other he h := by
    rcases readEntry_cases h with ⟨hm, -⟩ | ⟨-, -, rfl⟩
    · exact absurd hm he
    · rfl

/-- What is under `module` gives the modules: none if nothing is. -/
def HoldsModules (v? : Option Value) (ms : List Module) : Prop :=
  match v? with
  | none => ms = []
  | some v => v.toModules = .ok ms

theorem HoldsModules.eq {v? : Option Value} {ms ms' : List Module} (h : HoldsModules v? ms)
    (h' : HoldsModules v? ms') : ms = ms' := by
  cases v? with
  | none => exact h.trans h'.symm
  | some v => exact Except.ok.inj (h.symm.trans h')

section Documents

variable {root : Entries Value} {ms : List Module}

theorem holdsModules_of_foldlM (hr : (root.map (·.1)).Nodup)
    (hf : root.foldlM readEntry [] = .ok ms) : HoldsModules (Entries.get? "module" root) ms := by
  cases hg : Entries.get? "module" root with
  | none =>
    have hms := setsModules.get_of_not_mem hf (Entries.get?_eq_none_iff.mp hg)
    exact Option.some.inj hms
  | some v =>
    obtain ⟨a, ha, hms⟩ := setsModules.get_of_mem hr hf (Entries.mem_of_get?_eq_some hg)
    cases hms
    exact ha

theorem readEntry_ok {e : String × Value} (hm : e.1 = "module" → ∃ a, e.2.toModules = .ok a)
    (ho : e.1 ∉ ["module"] → e.2.InRange) (ms : List Module) : ∃ ms', readEntry ms e = .ok ms' := by
  unfold readEntry
  split_ifs with he
  · exact hm he
  · have hi := (Value.ignore_eq_ok_iff e.2).mpr (ho (by simpa using he))
    exact ⟨ms, by rw [hi]; rfl⟩

theorem modulesOf_eq_ok_iff (hr : (root.map (·.1)).Nodup) :
    modulesOf root = .ok ms ↔
      HoldsModules (Entries.get? "module" root) ms ∧ OthersInRange ["module"] root := by
  rw [modulesOf_eq_foldlM]
  constructor
  · intro hf
    refine ⟨holdsModules_of_foldlM hr hf, ?_⟩
    intro e he hknown
    obtain ⟨s, s', hread⟩ := exists_read_of_foldlM hf he
    rcases readEntry_cases hread with ⟨hk, -⟩ | ⟨-, hi, -⟩
    · simp [hk] at hknown
    · exact hi
  · rintro ⟨hm, hothers⟩
    obtain ⟨ms', hf⟩ : ∃ ms', root.foldlM readEntry [] = .ok ms' := by
      refine foldlM_read_ok (fun e he => readEntry_ok ?_ (hothers e he)) _
      intro hk
      have hg := (Entries.get?_eq_some_iff hr).mpr (hk ▸ he : ("module", e.2) ∈ root)
      rw [hg] at hm
      exact ⟨ms, hm⟩
    rw [hf, (holdsModules_of_foldlM hr hf).eq hm]

end Documents

theorem mapM_toModule_eq_ok_iff {vs : List Value} {ms : List Module} :
    vs.mapM Value.toModule = .ok ms ↔ Tells ms vs := by
  refine ⟨?_, mapM_toModule⟩
  intro h
  induction vs generalizing ms with
  | nil =>
    cases h
    exact .nil
  | cons v r ih =>
    rw [List.mapM_cons, bind_eq_ok_iff] at h
    obtain ⟨m, hm, h⟩ := h
    obtain ⟨rest, hrest, h⟩ := bind_eq_ok_iff.mp h
    cases h
    exact .cons hm (ih hrest)

section Outcomes

variable {source : String} {root : Entries Value}

theorem parse_toml_eq (h : parse? source = some root) :
    Config.parse .toml source =
      match modulesOf root with
      | .error cause => .error (.document .toml (.misfit cause))
      | .ok modules => .ok ⟨modules⟩ := by
  simp only [Config.parse, parseConfig, h]
  cases modulesOf root <;> rfl

theorem parse_toml_eq_ok_iff (h : parse? source = some root) {c : Config} :
    Config.parse .toml source = .ok c ↔ modulesOf root = .ok c.modules := by
  obtain ⟨modules⟩ := c
  rw [parse_toml_eq h]
  cases modulesOf root <;> simp

end Outcomes

end CamelLint.Toml
