import CamelLint.Proofs.Entries
import CamelLint.Proofs.Toml.Reading
import CamelLint.Toml.ModuleList

/-! The tables that lines define. What is said of a module adds up to one table, whether
its properties come by dotted keys or in a table of their own; from it exactly the
module is read. The tables of blocks line up in the array under `module`. -/

namespace CamelLint.Toml

/-! ### Statements -/

/-- A key by itself gets its value, if it has none. -/
theorem addStatement_key (origin : Origin) {m : Entries Value} {key : String}
    (h : key ∉ m.map (·.1)) (v : Value) :
    addStatement origin m ([key], v) = some (Entries.insert key v m) := by
  simp [addStatement, follow, define, Entries.get?_eq_none h]

/-- Statements of distinct keys make the table of their values. -/
theorem foldlM_addStatement (origin : Origin) {ws : List (String × Value)}
    (h : (ws.map (·.1)).Nodup) :
    ws.foldlM (fun m w => addStatement origin m ([w.1], w.2)) [] = some (Entries.ofList ws) := by
  induction ws using List.reverseRecOn with
  | nil => rfl
  | append_singleton ws w ih =>
    obtain ⟨hws, hw⟩ := Entries.last_not_mem h
    rw [List.foldlM_append, ih hws, Entries.ofList_concat]
    simp [addStatement_key origin hw w.2]

/-! ### Properties -/

def asValue (q : String × String) : String × Value := (q.1, .string q.2)

theorem keys_asValue (ps : List (String × String)) : (ps.map asValue).map (·.1) = ps.map (·.1) :=
  List.map_map

theorem ofList_asValue {m : Entries String} (h : m.Ascending) {ps : List (String × String)}
    (hp : ps.Perm m) : Entries.ofList (ps.map asValue) = m.map asValue := by
  have hm : Entries.Ascending (m.map asValue) := by
    rw [Entries.Ascending, keys_asValue]
    exact h
  exact hm.ofList_eq (hp.map asValue)

theorem foldlM_properties (origin : Origin) {m : Entries String} (h : m.Ascending)
    {ps : List (String × String)} (hp : ps.Perm m) :
    ps.foldlM (fun t q => addStatement origin t ([q.1], .string q.2)) [] =
      some (m.map asValue) := by
  have hkeys : ((ps.map asValue).map (·.1)).Nodup := by
    rw [keys_asValue]
    exact (hp.map _).nodup_iff.mpr h.nodup
  have hrun := foldlM_addStatement origin hkeys
  rw [List.foldlM_map, ofList_asValue h hp] at hrun
  exact hrun

theorem toProperties_asValue (origin : Origin) (m : Entries String) :
    (Value.table origin (m.map asValue)).toProperties = .ok m := by
  induction m with
  | nil => rfl
  | cons q r ih =>
    rw [Value.toProperties] at ih ⊢
    rw [List.map_cons, List.mapM_cons, ih]
    rfl

/-! ### Modules -/

/-- The table of what is known of a module. -/
def fields (name? : Option String) (properties? : Option Value) : Entries Value :=
  (name?.map fun s => ("name", Value.string s)).toList ++
    (properties?.map fun v => ("properties", v)).toList

theorem toModule_name (origin : Origin) (name : String) :
    (Value.table origin (fields (some name) none)).toModule = .ok ⟨name, []⟩ := rfl

theorem toModule_properties (origin : Origin) (name : String) {v : Value} {ps : Entries String}
    (h : v.toProperties = .ok ps) :
    (Value.table origin (fields (some name) (some v))).toModule = .ok ⟨name, ps⟩ := by
  simp only [fields, Value.toModule, Option.map_some, Option.toList_some, List.cons_append,
    List.nil_append, List.foldlM_cons, List.foldlM_nil, Value.ModuleFields.read, h]
  rfl

theorem addStatement_name (origin : Origin) (v? : Option Value) (s : String) :
    addStatement origin (fields none v?) (["name"], .string s) = some (fields (some s) v?) := by
  cases v? <;> rfl

theorem get?_properties (name? : Option String) (v? : Option Value) :
    Entries.get? "properties" (fields name? v?) = v? := by
  cases name? <;> cases v? <;> rfl

theorem insert_properties (name? : Option String) (v? : Option Value) (v : Value) :
    Entries.insert "properties" v (fields name? v?) = fields name? (some v) := by
  cases name? <;> cases v? <;> rfl

theorem addStatement_properties (origin : Origin) (name? : Option String) (v : Value) :
    addStatement origin (fields name? none) (["properties"], v) =
      some (fields name? (some v)) := by
  simp [addStatement, follow, define, get?_properties, insert_properties]

/-- The table that dotted keys make, if there are any. -/
def dotted? (m : Entries Value) : Option Value :=
  if m = [] then none else some (.table .dotted m)

theorem insert_ne_nil (key : String) (v : Value) (m : Entries Value) :
    Entries.insert key v m ≠ [] := by
  cases m with
  | nil => exact List.cons_ne_nil _ _
  | cons e r =>
    rw [Entries.insert]
    split_ifs <;> exact List.cons_ne_nil _ _

theorem addStatement_property (origin : Origin) (name? : Option String) {m : Entries Value}
    {key : String} (h : key ∉ m.map (·.1)) (v : Value) :
    addStatement origin (fields name? (dotted? m)) (["properties", key], v) =
      some (fields name? (dotted? (Entries.insert key v m))) := by
  rw [dotted?, dotted?, if_neg (insert_ne_nil key v m)]
  split_ifs with hm
  · subst hm
    simp [addStatement, follow, define, get?_properties, insert_properties, Entries.insert]
  · simp [addStatement, follow, define, get?_properties, insert_properties, Entries.get?_eq_none h]

/-! ### What is said of a module -/

def Entry.name? : Entry → Option String
  | .name s => some s
  | _ => none

/-- The property that a dotted key gives. -/
def Entry.pair? : Entry → Option (String × String)
  | .property k v => some (k, v)
  | _ => none

/-- The entry is no inline table. -/
def Entry.IsPlain (e : Entry) : Prop := ∀ ps, e ≠ .properties ps

/-- The table of a name and of properties by dotted keys. -/
def plainTable (names : List String) (ps : List (String × String)) : Entries Value :=
  fields names.head? (dotted? (Entries.ofList (ps.map asValue)))

theorem addTo?_name (origin : Origin) (s : String) (ps : List (String × String)) :
    (Entry.name s).addTo? origin (plainTable [] ps) = some (plainTable [s] ps) :=
  addStatement_name origin _ s

theorem addTo?_property (origin : Origin) (names : List String) {ps : List (String × String)}
    {k v : String} (h : ((ps ++ [(k, v)]).map (·.1)).Nodup) :
    (Entry.property k v).addTo? origin (plainTable names ps) =
      some (plainTable names (ps ++ [(k, v)])) := by
  rw [← keys_asValue, List.map_append] at h
  rw [plainTable, plainTable, List.map_append, List.map_singleton, Entries.ofList_concat]
  exact addStatement_property origin _ (Entries.last_not_mem h).2 (.string v)

/-- One name at most and properties of distinct keys make a table, in whatever order. -/
theorem foldlM_plainTable (origin : Origin) {es : List Entry} (hp : ∀ e ∈ es, e.IsPlain)
    (hn : (es.filterMap Entry.name?).length ≤ 1)
    (hk : ((es.filterMap Entry.pair?).map (·.1)).Nodup) :
    es.foldlM (Entry.addTo? origin) [] =
      some (plainTable (es.filterMap Entry.name?) (es.filterMap Entry.pair?)) := by
  induction es using List.reverseRecOn with
  | nil => rfl
  | append_singleton es e ih =>
    have hplain : ∀ e ∈ es, e.IsPlain := fun e he => hp e (List.mem_append_left _ he)
    rw [List.filterMap_append] at hn hk
    rw [List.foldlM_append, List.filterMap_append, List.filterMap_append]
    cases e with
    | name s =>
      have hnone : es.filterMap Entry.name? = [] := by simpa [Entry.name?] using hn
      have hname : [Entry.name s].filterMap Entry.name? = [s] := rfl
      have hpair : [Entry.name s].filterMap Entry.pair? = [] := rfl
      rw [hpair, List.append_nil] at hk
      rw [ih hplain (by simp [hnone]) hk, hnone, hname, hpair, List.append_nil]
      simpa using addTo?_name origin s _
    | property k v =>
      have hname : [Entry.property k v].filterMap Entry.name? = [] := rfl
      have hpair : [Entry.property k v].filterMap Entry.pair? = [(k, v)] := rfl
      rw [hname, List.append_nil] at hn
      rw [hpair] at hk
      rw [ih hplain hn (Entries.last_not_mem hk).1, hname, hpair, List.append_nil]
      simpa using addTo?_property origin _ hk
    | properties ps => exact absurd rfl (hp _ (List.mem_append_right _ List.mem_cons_self) ps)

theorem toModule_plainTable (origin : Origin) {m : Module} (hm : m.properties.Ascending)
    {ps : List (String × String)} (hp : ps.Perm m.properties) :
    (Value.table origin (plainTable [m.name] ps)).toModule = .ok m := by
  rw [plainTable, ofList_asValue hm hp, dotted?]
  split_ifs with h
  · have hnone : m.properties = [] := List.map_eq_nil_iff.mp h
    have hmodule := toModule_name origin m.name
    rwa [← hnone] at hmodule
  · exact toModule_properties origin m.name (toProperties_asValue .dotted m.properties)

theorem filterMap_name? (n : String) (ps : List (String × String)) :
    (.name n :: ps.map fun q => .property q.1 q.2).filterMap Entry.name? = [n] := by
  simp [Entry.name?]

theorem filterMap_pair? (n : String) (ps : List (String × String)) :
    (.name n :: ps.map fun q => .property q.1 q.2).filterMap Entry.pair? = ps := by
  simp [List.filterMap_cons, Entry.pair?, List.filterMap_map, Function.comp_def]

/-- What gives a module makes a table from which it is read. -/
theorem Gives.table {m : Module} {es : List Entry} (h : Gives m es) (hm : m.properties.Ascending)
    (origin : Origin) :
    ∃ t, es.foldlM (Entry.addTo? origin) [] = some t ∧
      ∀ o, (Value.table o t).toModule = .ok m := by
  cases h with
  | dotted h =>
    have hnames : es.filterMap Entry.name? = [m.name] :=
      List.perm_singleton.mp (filterMap_name? m.name m.properties ▸ h.filterMap Entry.name?)
    have hpairs : (es.filterMap Entry.pair?).Perm m.properties :=
      filterMap_pair? m.name m.properties ▸ h.filterMap Entry.pair?
    have hplain : ∀ e ∈ es, e.IsPlain := by
      intro e he ps heq
      simpa [heq] using h.mem_iff.mp he
    have hkeys : ((es.filterMap Entry.pair?).map (·.1)).Nodup :=
      (hpairs.map _).nodup_iff.mpr hm.nodup
    refine ⟨_, foldlM_plainTable origin hplain (by simp [hnames]) hkeys, ?_⟩
    intro o
    rw [hnames]
    exact toModule_plainTable o hm hpairs
  | @inline ps hp h =>
    have htable : propertyTable? ps = some (m.properties.map asValue) :=
      foldlM_properties .inline hm hp
    have hproperties : ∀ name?, (Entry.properties ps).addTo? origin (fields name? none) =
        some (fields name? (some (.table .inline (m.properties.map asValue)))) := by
      intro name?
      rw [Entry.addTo?, Entry.statement?, htable]
      exact addStatement_properties origin name? _
    have hname : ∀ v?, (Entry.name m.name).addTo? origin (fields none v?) =
        some (fields (some m.name) v?) := fun v? => addStatement_name origin v? m.name
    refine ⟨fields (some m.name) (some (.table .inline (m.properties.map asValue))), ?_, ?_⟩
    · change es.foldlM (Entry.addTo? origin) (fields none none) = _
      rcases h with rfl | rfl <;> simp [hname, hproperties]
    · intro o
      exact toModule_properties o m.name (toProperties_asValue .inline m.properties)

/-! ### Sections -/

namespace Progress

theorem foldl_say (p : Progress) (sts : List (List String × Value)) :
    sts.foldl say p = { p with current := { p.current with
      statements := sts.reverse ++ p.current.statements } } := by
  induction sts generalizing p with
  | nil => rfl
  | cons s sts ih =>
    rw [List.foldl_cons, ih, List.reverse_cons, List.append_assoc]
    rfl

/-- A header and the statements under it are one more section. -/
theorem sections_newSection (p : Progress) (path : List String) (isArray : Bool)
    (sts : List (List String × Value)) :
    (sts.foldl say (Reading.newSection p path isArray)).sections =
      p.sections ++ [⟨path, isArray, sts⟩] := by
  simp [foldl_say, Reading.newSection, sections]

end Progress

/-- Under a header, the lines are these statements. -/
def Says (ls : List Line) (sts : List (List String × Value)) : Prop :=
  ∀ p, ls.foldlM Line.addTo? p = some (sts.foldl Progress.say p)

/-- Lines of entries are statements that make the table of the entries. -/
theorem says_entries {origin : Origin} {es : List Entry} {m t : Entries Value}
    (h : es.foldlM (Entry.addTo? origin) m = some t) :
    ∃ sts, Says (es.map .entry) sts ∧ sts.foldlM (addStatement origin) m = some t := by
  induction es generalizing m with
  | nil => exact ⟨[], fun _ => rfl, h⟩
  | cons e es ih =>
    rw [List.foldlM_cons] at h
    obtain ⟨m', he, hes⟩ := Option.bind_eq_some_iff.mp h
    obtain ⟨s, hs, hadd⟩ := Option.bind_eq_some_iff.mp he
    obtain ⟨sts, hlines, hsts⟩ := ih hes
    refine ⟨s :: sts, ?_, ?_⟩
    · intro p
      simpa [Line.addTo?, hs] using hlines (p.say s)
    · simpa [hadd] using hsts

theorem says_properties (ps : List (String × String)) :
    Says (ps.map .property) (ps.map fun q => ([q.1], .string q.2)) := by
  induction ps with
  | nil => exact fun _ => rfl
  | cons q ps ih => exact fun p => ih (p.say ([q.1], .string q.2))

/-- The document's table when headers have put these into the array of modules. -/
def rootOf (items : List Value) : Entries Value :=
  if items = [] then [] else [("module", .array items true)]

theorem rootOf_concat (items : List Value) (v : Value) :
    rootOf (items ++ [v]) = [("module", .array (items ++ [v]) true)] := by
  simp [rootOf]

theorem addSection_module (items : List Value) {sts : List (List String × Value)}
    {t : Entries Value} (h : sts.foldlM (addStatement .header) [] = some t) :
    addSection (rootOf items) ⟨["module"], true, sts⟩ =
      some (rootOf (items ++ [.table .header t])) := by
  rw [rootOf_concat, rootOf]
  split_ifs with hi
  · subst hi
    simp [addSection, follow, Section.place, h, Entries.insert]
  · simp [addSection, follow, Section.place, h, Entries.get?, Entries.insert]

theorem addSection_properties (items : List Value) (name? : Option String)
    {sts : List (List String × Value)} {t : Entries Value}
    (h : sts.foldlM (addStatement .header) [] = some t) :
    addSection (rootOf (items ++ [.table .header (fields name? none)]))
        ⟨["module", "properties"], false, sts⟩ =
      some (rootOf (items ++ [.table .header (fields name? (some (.table .header t)))])) := by
  simp [rootOf_concat, addSection, follow, Section.place, h, Entries.get?, Entries.insert,
    get?_properties, insert_properties]

/-! ### Blocks -/

/-- The sections so far put these into the array of modules. -/
def Builds (p : Progress) (items : List Value) : Prop :=
  ofSections p.sections = some (rootOf items)

/-- A header with lines under it adds their section. -/
theorem Builds.section {p : Progress} {items items' : List Value} (h : Builds p items)
    {path : List String} {isArray : Bool} (hl : path.length ≤ depthLimit) {ls : List Line}
    {sts : List (List String × Value)} (hlines : Says ls sts)
    (hs : addSection (rootOf items) ⟨path, isArray, sts⟩ = some (rootOf items')) :
    ∃ p', (.header path isArray :: ls).foldlM Line.addTo? p = some p' ∧ Builds p' items' := by
  refine ⟨sts.foldl Progress.say (Reading.newSection p path isArray), ?_, ?_⟩
  · simpa [Line.addTo?, hl] using hlines (Reading.newSection p path isArray)
  · rw [Builds, ofSections] at h
    rw [Builds, Progress.sections_newSection, ofSections, List.foldlM_append, h]
    simpa using hs

/-- The lines of a block put one more module into the array. -/
theorem Block.builds {m : Module} {ls : List Line} (hb : Block m ls) (hm : m.properties.Ascending)
    {p : Progress} {items : List Value} (h : Builds p items) :
    ∃ p' v, ls.foldlM Line.addTo? p = some p' ∧ Builds p' (items ++ [v]) ∧ v.toModule = .ok m := by
  cases hb with
  | entries hg =>
    obtain ⟨t, ht, hmodule⟩ := hg.table hm .header
    obtain ⟨sts, hlines, hsts⟩ := says_entries ht
    obtain ⟨p', hrun, hbuilds⟩ := h.section (by decide) hlines (addSection_module items hsts)
    exact ⟨p', .table .header t, hrun, hbuilds, hmodule .header⟩
  | @table ps hp =>
    have hname : Says [.entry (.name m.name)] [(["name"], .string m.name)] := fun _ => rfl
    have hfirst : addSection (rootOf items) ⟨["module"], true, [(["name"], .string m.name)]⟩ =
        some (rootOf (items ++ [.table .header (fields (some m.name) none)])) :=
      addSection_module items rfl
    have hsecond : (ps.map fun q => ([q.1], Value.string q.2)).foldlM (addStatement .header) [] =
        some (m.properties.map asValue) := by
      rw [List.foldlM_map]
      exact foldlM_properties .header hm hp
    obtain ⟨q, hq, hbuilds⟩ := h.section (by decide) hname hfirst
    obtain ⟨p', hp', hbuilds'⟩ :=
      hbuilds.section (by decide) (says_properties ps) (addSection_properties items _ hsecond)
    have hproperties := toProperties_asValue .header m.properties
    refine ⟨p', _, ?_, hbuilds', toModule_properties .header m.name hproperties⟩
    change ([Line.header ["module"] true, .entry (.name m.name)] ++
      Line.header ["module", "properties"] false :: ps.map .property).foldlM Line.addTo? p = some p'
    rw [List.foldlM_append, hq]
    exact hp'

/-- From the values the modules are read. -/
def Tells : List Module → List Value → Prop := List.Forall₂ fun m v => v.toModule = .ok m

theorem blocks_build {ms : List Module} {ls : List (List Line)} (hb : List.Forall₂ Block ms ls)
    (hm : ∀ m ∈ ms, m.properties.Ascending) {p : Progress} {items : List Value}
    (h : Builds p items) :
    ∃ p' vs, ls.flatten.foldlM Line.addTo? p = some p' ∧ Builds p' (items ++ vs) ∧ Tells ms vs := by
  induction hb generalizing p items with
  | nil => exact ⟨p, [], rfl, by rwa [List.append_nil], .nil⟩
  | cons hb _ ih =>
    obtain ⟨hm, hms⟩ := List.forall_mem_cons.mp hm
    obtain ⟨q, v, hq, hbuilds, hv⟩ := hb.builds hm h
    obtain ⟨p', vs, hrun, hbuilds', htells⟩ := ih hms hbuilds
    refine ⟨p', v :: vs, ?_, by rwa [List.append_cons], .cons hv htells⟩
    rw [List.flatten_cons, List.foldlM_append, hq]
    exact hrun

/-- Inline tables are put in front of one another. -/
theorem foldlM_items {ms : List Module} {es : List (List Entry)} (hg : List.Forall₂ Gives ms es)
    (hm : ∀ m ∈ ms, m.properties.Ascending) (items : List Value) :
    ∃ vs, es.foldlM addItem? items = some (vs.reverse ++ items) ∧ Tells ms vs := by
  induction hg generalizing items with
  | nil => exact ⟨[], rfl, .nil⟩
  | cons hg _ ih =>
    obtain ⟨hm, hms⟩ := List.forall_mem_cons.mp hm
    obtain ⟨t, ht, hmodule⟩ := hg.table hm .inline
    obtain ⟨vs, hrun, htells⟩ := ih hms (.table .inline t :: items)
    refine ⟨.table .inline t :: vs, ?_, .cons (hmodule .inline) htells⟩
    simpa [addItem?, ht] using hrun

/-! ### Reading the modules -/

theorem mapM_toModule {ms : List Module} {vs : List Value} (h : Tells ms vs) :
    vs.mapM Value.toModule = .ok ms := by
  induction h with
  | nil => rfl
  | cons hv _ ih =>
    rw [List.mapM_cons, hv, ih]
    rfl

theorem modulesOf_array {ms : List Module} {vs : List Value} (h : Tells ms vs) (byHeaders : Bool) :
    modulesOf [("module", .array vs byHeaders)] = .ok ms := by
  have hread : modulesOf [("module", .array vs byHeaders)] = vs.mapM Value.toModule := by
    simp [modulesOf, Value.toModules]
  rw [hread, mapM_toModule h]

theorem modulesOf_rootOf {ms : List Module} {vs : List Value} (h : Tells ms vs) :
    modulesOf (rootOf vs) = .ok ms := by
  rw [rootOf]
  split_ifs with hvs
  · subst hvs
    cases h
    rfl
  · exact modulesOf_array h true

end CamelLint.Toml
