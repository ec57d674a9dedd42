import CamelLint.Config.Load
import CamelLint.Proofs.TextOrder
import CamelLint.Proofs.Toml.Fitting
import CamelLint.Proofs.Xml.RoundTrip
import Mathlib

/-! Properties as a store. However the properties of a module come about, by writes or from
a document, they are listed in ascending order of their keys, by bytes and by code points
alike, and under each key there is what was written last. Nothing else of the writes
is kept. -/

namespace CamelLint

/-! ### Entries -/

namespace Entries

variable {α : Type}

theorem lastValue?_append (key : String) (ws vs : List (String × α)) :
    lastValue? key (ws ++ vs) = (lastValue? key vs).or (lastValue? key ws) := by
  simp only [lastValue?, List.reverse_append, List.find?_append, Option.map_or]

theorem lastValue?_cons (key : String) (w : String × α) (ws : List (String × α)) :
    lastValue? key (w :: ws) =
      (lastValue? key ws).or (if key = w.1 then some w.2 else none) := by
  rw [← List.singleton_append, lastValue?_append, ← List.nil_append [w], lastValue?_concat]
  rfl

/-- Writes under different keys commute. -/
theorem lastValue?_swap {j k : String} (h : j ≠ k) (v w : α) (key : String)
    (before after : List (String × α)) :
    lastValue? key (before ++ (j, v) :: (k, w) :: after) =
      lastValue? key (before ++ (k, w) :: (j, v) :: after) := by
  simp only [lastValue?_append, lastValue?_cons, Option.or_assoc]
  by_cases hj : key = j
  · subst hj
    simp [h]
  · simp [hj]

/-- A value that is overwritten leaves no trace. -/
theorem lastValue?_overwritten (k : String) (v w : α) (key : String)
    (before between after : List (String × α)) :
    lastValue? key (before ++ (k, v) :: (between ++ (k, w) :: after)) =
      lastValue? key (before ++ (between ++ (k, w) :: after)) := by
  simp only [lastValue?_append, lastValue?_cons, Option.or_assoc]
  by_cases hk : key = k
  · simp [hk]
  · simp [hk]

/-- Entries in ascending order are known by their look-ups. -/
theorem Ascending.ext {m n : Entries α} (hm : m.Ascending) (hn : n.Ascending)
    (h : ∀ key, get? key m = get? key n) : m = n := by
  have hmem : ∀ e : String × α, e ∈ m ↔ e ∈ n := by
    rintro ⟨key, value⟩
    rw [← get?_eq_some_iff hm.nodup, ← get?_eq_some_iff hn.nodup, h key]
  have hperm : n.Perm m :=
    (List.perm_ext_iff_of_nodup hn.nodup.of_map hm.nodup.of_map).mpr fun e => (hmem e).symm
  exact (hm.ofList_eq hperm).symm.trans (hn.ofList_eq (.refl n))

theorem ofList_eq_iff {ws vs : List (String × α)} :
    ofList ws = ofList vs ↔ ∀ key, lastValue? key ws = lastValue? key vs := by
  simp only [← get?_ofList]
  exact ⟨fun h key => by rw [h], (ascending_ofList ws).ext (ascending_ofList vs)⟩

/-- In ascending entries nothing is written twice. -/
theorem Ascending.lastValue?_eq {m : Entries α} (h : m.Ascending) (key : String) :
    lastValue? key m = get? key m := by
  rw [← get?_ofList, h.ofList_eq (.refl m)]

theorem Ascending.getElem?_hashMap {m : Entries α} (h : m.Ascending) (key : String) :
    (Std.HashMap.ofList m)[key]? = get? key m := by
  cases hg : get? key m with
  | none =>
    have hkey : (m.map Prod.fst).contains key = false := by
      simpa using get?_eq_none_iff.mp hg
    exact Std.HashMap.getElem?_ofList_of_contains_eq_false hkey
  | some value =>
    have hdistinct : m.Pairwise fun a b => (a.1 == b.1) = false := by
      refine (List.pairwise_map.mp h).imp ?_
      intro a b hab
      simpa using ne_of_lt hab
    exact Std.HashMap.getElem?_ofList_of_mem (beq_self_eq_true key) hdistinct
      (mem_of_get?_eq_some hg)

end Entries

/-! ### Modules -/

namespace Module

/-- The module after properties are written to it one after another. -/
def withProperties (m : Module) (writes : List (String × String)) : Module :=
  writes.foldl (fun m w => m.withProperty w.1 w.2) m

theorem withProperties_eq (m : Module) (writes : List (String × String)) :
    m.withProperties writes =
      ⟨m.name, writes.foldl (fun p w => Entries.insert w.1 w.2 p) m.properties⟩ := by
  induction writes generalizing m with
  | nil => rfl
  | cons w ws ih => exact ih (m.withProperty w.1 w.2)

theorem withProperties_ofName (name : String) (writes : List (String × String)) :
    (ofName name).withProperties writes = ⟨name, Entries.ofList writes⟩ :=
  withProperties_eq _ _

/-- The module has the name, and its properties are a store of the writes: they list each key
that was written once and in ascending order, and whatever looks a key up, in the properties
themselves, in what a configuration hands out, or in a hash map of them, finds the value
that was written last. -/
structure Stores (m : Module) (name : String) (writes : List (String × String)) : Prop where
  name_eq : m.name = name
  once : (m.properties.map (·.1)).Nodup
  bytes_ascending : (m.properties.map (·.1)).Pairwise fun j k => Text.utf8Bytes j < Text.utf8Bytes k
  codes_ascending :
    (m.properties.map (·.1)).Pairwise fun j k => Text.codePoints j < Text.codePoints k
  mem_iff : ∀ key value, (key, value) ∈ m.properties ↔
    Entries.lastValue? key writes = some value
  get?_eq : ∀ key, m.properties.get? key = Entries.lastValue? key writes
  handed_out : ∀ c : Config, c.module? name = some m → ∀ key,
    (c.propertiesFor name).get? key = Entries.lastValue? key writes
  hashed : ∀ key, (Std.HashMap.ofList m.properties)[key]? = Entries.lastValue? key writes

theorem Records.stores {m : Module} {name : String} {writes : List (String × String)}
    (h : m.Records name writes) : m.Stores name writes where
  name_eq := h.name_eq
  once := h.holdsLast.ascending.nodup
  bytes_ascending := h.holdsLast.ascending.imp Text.utf8Bytes_lt_iff.mpr
  codes_ascending := h.holdsLast.ascending.imp Text.codePoints_lt_iff.mpr
  mem_iff key value := by
    rw [← Entries.get?_eq_some_iff h.holdsLast.ascending.nodup, h.holdsLast.get?_eq]
  get?_eq := h.holdsLast.get?_eq
  handed_out c hc key := by
    rw [Config.propertiesFor, hc]
    exact h.holdsLast.get?_eq key
  hashed key := by
    rw [h.holdsLast.ascending.getElem?_hashMap, h.holdsLast.get?_eq]

theorem records_withProperties (name : String) (writes : List (String × String)) :
    ((ofName name).withProperties writes).Records name writes := by
  rw [withProperties_ofName]
  exact ⟨rfl, Entries.holdsLast_ofList writes⟩

/-- Of the writes to a module nothing is kept but the last value under each key. -/
theorem withProperties_ofName_eq_iff {name : String} {ws vs : List (String × String)} :
    (ofName name).withProperties ws = (ofName name).withProperties vs ↔
      ∀ key, Entries.lastValue? key ws = Entries.lastValue? key vs := by
  rw [withProperties_ofName, withProperties_ofName, Module.mk.injEq, Entries.ofList_eq_iff]
  simp

end Module

/-! ### Modules in documents -/

namespace Toml

/-- The properties that a value writes. -/
inductive WritesProperties : Value → List (String × String) → Prop where
  | table (origin : Origin) (ps : List (String × String)) :
      WritesProperties (.table origin (ps.map asValue)) ps
  | date (text : String) : WritesProperties (.date text) [(dateKey, text)]

/-- The name and the properties that a value writes: a table, with or without properties, or an
array of a name and perhaps properties. -/
inductive WritesModule : Value → String × List (String × String) → Prop where
  | bare {origin : Origin} {t : Entries Value} {name : String}
      (hn : Entries.get? "name" t = some (.string name))
      (hp : Entries.get? "properties" t = none) : WritesModule (.table origin t) (name, [])
  | table {origin : Origin} {t : Entries Value} {name : String} {v : Value}
      {ps : List (String × String)} (hn : Entries.get? "name" t = some (.string name))
      (hp : Entries.get? "properties" t = some v) (hv : WritesProperties v ps) :
      WritesModule (.table origin t) (name, ps)
  | single (name : String) (byHeaders : Bool) :
      WritesModule (.array [.string name] byHeaders) (name, [])
  | pair {name : String} {v : Value} {rest : List Value} {ps : List (String × String)}
      (byHeaders : Bool) (hv : WritesProperties v ps) :
      WritesModule (.array (.string name :: v :: rest) byHeaders) (name, ps)

theorem writesProperties_of_toProperties {v : Value} {ps : Entries String}
    (h : v.toProperties = .ok ps) : WritesProperties v ps := by
  by_cases hv : ∃ text, v = .date text
  · obtain ⟨text, rfl⟩ := hv
    cases h
    exact .date text
  · rw [Value.toProperties_eq_ok_iff (fun text hd => hv ⟨text, hd⟩)] at h
    obtain ⟨origin, rfl⟩ := h
    exact .table origin ps

theorem WritesProperties.ascending {v : Value} {ps : Entries String} (h : WritesProperties v ps)
    (hv : v.IsOrdered) : ps.Ascending := by
  cases h with
  | table origin ps =>
    have hm := (Value.isOrdered_table.mp hv).ascending
    rwa [Entries.Ascending, keys_asValue] at hm
  | date text => exact List.pairwise_singleton _ _

theorem WritesModule.ascending {v : Value} {w : String × List (String × String)}
    (h : WritesModule v w) (hv : v.IsOrdered) : Entries.Ascending w.2 := by
  cases h with
  | bare hn hp => exact .nil
  | table hn hp hw => exact hw.ascending ((Value.isOrdered_table.mp hv).of_get? hp)
  | single name byHeaders => exact .nil
  | pair byHeaders hw => exact hw.ascending (Value.isOrdered_array.mp hv _ (by simp))

theorem writesModule_table {origin : Origin} {t : Entries Value} {m : Module}
    (ht : (t.map (·.1)).Nodup) (h : (Value.table origin t).toModule = .ok m) :
    WritesModule (.table origin t) (m.name, m.properties) := by
  rw [Value.toModule, bind_eq_ok_iff] at h
  obtain ⟨fields, hf, h⟩ := h
  cases hname : fields.name with
  | none =>
    rw [hname] at h
    cases h
  | some name =>
    rw [hname] at h
    cases h
    have hn := (name_eq_some_iff ht hf).mp hname
    cases hp : Entries.get? "properties" t with
    | none =>
      have hnone := Value.ModuleFields.setsProperties.get_of_not_mem hf
        (Entries.get?_eq_none_iff.mp hp)
      rw [hnone]
      exact .bare hn hp
    | some v =>
      obtain ⟨ps, hps, hget⟩ := Value.ModuleFields.setsProperties.get_of_mem ht hf
        (Entries.mem_of_get?_eq_some hp)
      rw [hget]
      exact .table hn hp (writesProperties_of_toProperties hps)

theorem writesModule_array {items : List Value} {byHeaders : Bool} {m : Module}
    (h : (Value.array items byHeaders).toModule = .ok m) :
    WritesModule (.array items byHeaders) (m.name, m.properties) := by
  match items with
  | [] => cases h
  | [n] =>
    rw [Value.toModule, bind_eq_ok_iff] at h
    obtain ⟨name, hn, h⟩ := h
    cases h
    rw [Value.toText_eq_ok_iff] at hn
    subst hn
    exact .single name byHeaders
  | n :: v :: rest =>
    rw [Value.toModule, bind_eq_ok_iff] at h
    obtain ⟨name, hn, h⟩ := h
    obtain ⟨ps, hps, h⟩ := bind_eq_ok_iff.mp h
    cases h
    rw [Value.toText_eq_ok_iff] at hn
    subst hn
    exact .pair byHeaders (writesProperties_of_toProperties hps)

theorem writesModule_of_toModule {v : Value} (hv : v.IsOrdered) {m : Module}
    (h : v.toModule = .ok m) : WritesModule v (m.name, m.properties) := by
  cases v with
  | table origin t =>
    exact writesModule_table (Value.isOrdered_table.mp hv).ascending.nodup h
  | array items byHeaders => exact writesModule_array h
  | _ => cases h

/-- Tables are ordered, so each property of a module is written once. -/
theorem exists_writes_of_tells {ms : List Module} {vs : List Value} (h : Tells ms vs)
    (hv : ∀ v ∈ vs, v.IsOrdered) :
    ∃ ws, List.Forall₂ WritesModule vs ws ∧
      List.Forall₂ (fun w m => Module.Records m w.1 w.2) ws ms := by
  induction h with
  | nil => exact ⟨[], .nil, .nil⟩
  | @cons m v ms vs hm h ih =>
    obtain ⟨hfirst, hrest⟩ := List.forall_mem_cons.mp hv
    obtain ⟨ws, hw, hrecords⟩ := ih hrest
    have hmodule := writesModule_of_toModule hfirst hm
    have hasc : m.properties.Ascending := hmodule.ascending hfirst
    have hrecord : m.Records m.name m.properties :=
      ⟨rfl, hasc, fun key => (hasc.lastValue?_eq key).symm⟩
    exact ⟨(m.name, m.properties) :: ws, .cons hmodule hw, .cons hrecord hrecords⟩

end Toml

/-- The modules that a text writes, each with its name and what is written for it: in XML the
properties one after another, in TOML a table, where no key is written twice. -/
inductive WritesModules : Format → String → List (String × List (String × String)) → Prop where
  | xml {source : String} {tree : Xml.ModuleTree} (h : (Xml.scan source).moduleTree = .ok tree) :
      WritesModules .xml source tree.nodes
  | none {source : String} {root : Entries Toml.Value} (h : Toml.parse? source = some root)
      (hm : Entries.get? "module" root = none) : WritesModules .toml source []
  | toml {source : String} {root : Entries Toml.Value} {items : List Toml.Value}
      {byHeaders : Bool} {ws : List (String × List (String × String))}
      (h : Toml.parse? source = some root)
      (hm : Entries.get? "module" root = some (.array items byHeaders))
      (hw : List.Forall₂ Toml.WritesModule items ws) : WritesModules .toml source ws

namespace Config

theorem parse_xml_records {source : String} {c : Config} (h : parse .xml source = .ok c) :
    ∃ ws, WritesModules .xml source ws ∧
      List.Forall₂ (fun w m => Module.Records m w.1 w.2) ws c.modules := by
  have hparse : Xml.parseConfig source = .ok c := by
    simp only [parse] at h
    cases hx : Xml.parseConfig source with
    | error e =>
      rw [hx] at h
      cases h
    | ok d =>
      rw [hx] at h
      cases h
      rfl
  obtain ⟨tree, htree, hc⟩ := bind_eq_ok_iff.mp hparse
  cases hc
  refine ⟨tree.nodes, .xml htree, ?_⟩
  rw [Xml.ModuleTree.flatten_eq, List.forall₂_map_right_iff, List.forall₂_same]
  exact fun n _ => Xml.ModuleTree.records_moduleOf n

theorem parse_toml_records {source : String} {c : Config} (h : parse .toml source = .ok c) :
    ∃ ws, WritesModules .toml source ws ∧
      List.Forall₂ (fun w m => Module.Records m w.1 w.2) ws c.modules := by
  cases hparse : Toml.parse? source with
  | none =>
    simp only [parse, Toml.parseConfig, hparse] at h
    cases h
  | some root =>
    have hroot := Toml.orderedEntries_of_parse? hparse
    rw [Toml.parse_toml_eq_ok_iff hparse, Toml.modulesOf_eq_ok_iff hroot.ascending.nodup] at h
    have hmodules := h.1
    cases hm : Entries.get? "module" root with
    | none =>
      rw [hm] at hmodules
      refine ⟨[], .none hparse hm, ?_⟩
      rw [show c.modules = [] from hmodules]
      exact .nil
    | some v =>
      rw [hm] at hmodules
      cases v with
      | array items byHeaders =>
        have htells := Toml.mapM_toModule_eq_ok_iff.mp hmodules
        have hitems := Toml.Value.isOrdered_array.mp (hroot.of_get? hm)
        obtain ⟨ws, hw, hrecords⟩ := Toml.exists_writes_of_tells htells hitems
        exact ⟨ws, .toml hparse hm hw, hrecords⟩
      | _ => cases hmodules

/-- Properties are a store, whether they are written to a module one after another or come with
a document; of the writes, just the last value under each key is kept, so that writes under
different keys commute and what is overwritten leaves no trace. -/
theorem properties_store :
    (∀ (name : String) (writes : List (String × String)),
      ((Module.ofName name).withProperties writes).Stores name writes) ∧
    (∀ (format : Format) (source : String) (c : Config), parse format source = .ok c →
      ∃ ws, WritesModules format source ws ∧
        List.Forall₂ (fun w m => Module.Stores m w.1 w.2) ws c.modules) ∧
    (∀ (name : String) (ws vs : List (String × String)),
      (Module.ofName name).withProperties ws = (Module.ofName name).withProperties vs ↔
        ∀ key, Entries.lastValue? key ws = Entries.lastValue? key vs) ∧
    (∀ (name j k v w : String) (before after : List (String × String)), j ≠ k →
      (Module.ofName name).withProperties (before ++ (j, v) :: (k, w) :: after) =
        (Module.ofName name).withProperties (before ++ (k, w) :: (j, v) :: after)) ∧
    ∀ (name k v w : String) (before between after : List (String × String)),
      (Module.ofName name).withProperties (before ++ (k, v) :: (between ++ (k, w) :: after)) =
        (Module.ofName name).withProperties (before ++ (between ++ (k, w) :: after)) := by
  refine ⟨fun name writes => (Module.records_withProperties name writes).stores, ?_,
    fun name ws vs => Module.withProperties_ofName_eq_iff, ?_, ?_⟩
  · intro format source c h
    have hrecords : ∃ ws, WritesModules format source ws ∧
        List.Forall₂ (fun w m => Module.Records m w.1 w.2) ws c.modules := by
      cases format with
      | xml => exact parse_xml_records h
      | toml => exact parse_toml_records h
    obtain ⟨ws, hws, hmodules⟩ := hrecords
    exact ⟨ws, hws, hmodules.imp fun _ _ hm => hm.stores⟩
  · intro name j k v w before after hjk
    rw [Module.withProperties_ofName_eq_iff]
    exact fun key => Entries.lastValue?_swap hjk v w key before after
  · intro name k v w before between after
    rw [Module.withProperties_ofName_eq_iff]
    exact fun key => Entries.lastValue?_overwritten k v w key before between after

/-- A property written twice, with another one between whose key is of four bytes. -/
def twiceText : String :=
  "<module name='A'><property name='\uff5e' value='1'/><property name='𐀀' value='2'/>" ++
  "<property name='\uff5e' value='3'/></module>"

def twiceConfig : Config := ⟨[⟨"A", [("\uff5e", "3"), ("𐀀", "2")]⟩]⟩

theorem properties_store_twice :
    parse .xml twiceText = .ok twiceConfig ∧
    (∃ ws, WritesModules .xml twiceText ws ∧
      List.Forall₂ (fun w m => Module.Stores m w.1 w.2) ws twiceConfig.modules) ∧
    "a" ≠ "b" ∧
    (Module.ofName "A").withProperties [("a", "1"), ("b", "2")] =
      (Module.ofName "A").withProperties [("b", "2"), ("a", "1")] := by
  have hparse : parse .xml twiceText = .ok twiceConfig := by decide +kernel
  have hne : "a" ≠ "b" := by decide
  exact ⟨hparse, properties_store.2.1 .xml twiceText twiceConfig hparse, hne,
    properties_store.2.2.2.1 "A" "a" "b" "1" "2" [] [] hne⟩

end Config

end CamelLint
