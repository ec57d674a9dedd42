import CamelLint.Proofs.Xml.RoundTrip

/-! Live elements. A module is live if it is the root or in a live module, and so is a
property in a live module; nothing else counts. Live modules are listed in the order of
their start tags. A tree describes modules exactly if all that is live in it has a name,
and then it describes the live modules in this order. -/

namespace CamelLint.Xml

/-! ### Modules and properties -/

namespace Element

def attributes : Element → List Attribute
  | mk _ attributes _ => attributes

def children : Element → List Element
  | mk _ _ children => children

def properties (e : Element) : List Element := e.children.filter (·.name = "property".toList)

def HasName (e : Element) : Prop := ∃ a ∈ e.attributes, a.key = "name".toList

mutual

/-- All elements of a tree, in the order of their start tags. -/
def elements : Element → List Element
  | mk name attributes children => mk name attributes children :: elementsAll children

def elementsAll : List Element → List Element
  | [] => []
  | e :: r => elements e ++ elementsAll r

end

mutual

/-- The live modules of a tree, in the order of their start tags. -/
def liveModules : Element → List Element
  | mk name attributes children => mk name attributes children :: liveModulesAll children

def liveModulesAll : List Element → List Element
  | [] => []
  | e :: r =>
    if e.name = "module".toList then liveModules e ++ liveModulesAll r else liveModulesAll r

end

theorem name_mk (name : List Char) (attributes : List Attribute) (children : List Element) :
    (mk name attributes children).name = name := rfl

theorem elements_eq (e : Element) : e.elements = e :: elementsAll e.children := by
  cases e
  rw [elements, children]

theorem liveModules_eq (e : Element) : e.liveModules = e :: liveModulesAll e.children := by
  cases e
  rw [liveModules, children]

/-- What holds of an element if it holds of its children holds of every element. -/
theorem induction_children {P : Element → Prop} (step : ∀ e, (∀ c ∈ e.children, P c) → P e) :
    ∀ e, P e
  | mk _ _ _ => step _ fun c hc => induction_children step c
termination_by e => sizeOf e
decreasing_by
  have hlt := List.sizeOf_lt_of_mem hc
  simp only [Element.children, mk.sizeOf_spec] at hlt ⊢
  omega

end Element

open Element

inductive LiveModule (root : Element) : Element → Prop where
  | root : LiveModule root root
  | child {m e : Element} (hm : LiveModule root m) (he : e ∈ m.children)
      (hn : e.name = "module".toList) : LiveModule root e

def LiveProperty (root e : Element) : Prop := ∃ m, LiveModule root m ∧ e ∈ m.properties

/-! ### The list of live modules -/

theorem mem_liveModulesAll_iff {es : List Element} {e : Element} :
    e ∈ liveModulesAll es ↔ ∃ r ∈ es, r.name = "module".toList ∧ e ∈ r.liveModules := by
  induction es with
  | nil => simp [liveModulesAll]
  | cons d r ih =>
    rw [liveModulesAll, List.exists_mem_cons_iff, ← ih]
    split_ifs with hd
    · rw [List.mem_append, and_iff_right hd]
    · rw [or_iff_right fun h => hd h.1]

/-- What is live in a child that is a module is live in the parent. -/
theorem LiveModule.of_child {r m e : Element} (hr : r ∈ m.children) (hn : r.name = "module".toList)
    (h : LiveModule r e) : LiveModule m e := by
  induction h with
  | root => exact .child .root hr hn
  | child _ he hn ih => exact .child ih he hn

theorem liveModule_of_mem {root e : Element} (h : e ∈ root.liveModules) : LiveModule root e := by
  induction root using Element.induction_children with
  | step root ih =>
    rw [liveModules_eq, List.mem_cons, mem_liveModulesAll_iff] at h
    rcases h with rfl | ⟨r, hr, hn, h⟩
    · exact .root
    · exact (ih r hr h).of_child hr hn

theorem mem_liveModules_of_child {root m e : Element} (hm : m ∈ root.liveModules)
    (he : e ∈ m.children) (hn : e.name = "module".toList) : e ∈ root.liveModules := by
  induction root using Element.induction_children with
  | step root ih =>
    rw [liveModules_eq, List.mem_cons, mem_liveModulesAll_iff] at hm ⊢
    rcases hm with rfl | ⟨r, hr, hrn, hm⟩
    · exact .inr ⟨e, he, hn, by simp [liveModules_eq]⟩
    · exact .inr ⟨r, hr, hrn, ih r hr hm⟩

theorem mem_liveModules_iff {root e : Element} : e ∈ root.liveModules ↔ LiveModule root e := by
  refine ⟨liveModule_of_mem, ?_⟩
  intro h
  induction h with
  | root => simp [liveModules_eq]
  | child _ he hn ih => exact mem_liveModules_of_child ih he hn

theorem liveModulesAll_sublist {es : List Element}
    (h : ∀ e ∈ es, e.liveModules.Sublist e.elements) :
    (liveModulesAll es).Sublist (elementsAll es) := by
  induction es with
  | nil =>
    rw [liveModulesAll]
    exact List.nil_sublist _
  | cons e r ih =>
    obtain ⟨he, hr⟩ := List.forall_mem_cons.mp h
    rw [liveModulesAll, elementsAll]
    split_ifs
    · exact he.append (ih hr)
    · exact (ih hr).trans (List.sublist_append_right _ _)

theorem liveModules_sublist (e : Element) : e.liveModules.Sublist e.elements := by
  induction e using Element.induction_children with
  | step e ih =>
    rw [liveModules_eq, elements_eq]
    exact (liveModulesAll_sublist ih).cons_cons e

/-! ### Names -/

/-- A module with a name, all of whose properties have names. -/
structure Element.IsComplete (e : Element) : Prop where
  hasName : e.HasName
  properties : ∀ p ∈ e.properties, p.HasName

/-- Of the children of a live module, and below them, all that is live has a name. -/
structure AllNamed (es : List Element) : Prop where
  properties : ∀ e ∈ es, e.name = "property".toList → e.HasName
  modules : ∀ e ∈ liveModulesAll es, e.IsComplete

section AllNamed

variable {e : Element} {es : List Element}

theorem isComplete_liveModules_iff :
    (∀ m ∈ e.liveModules, m.IsComplete) ↔ e.HasName ∧ AllNamed e.children := by
  have hproperties : (∀ p ∈ e.properties, p.HasName) ↔
      ∀ p ∈ e.children, p.name = "property".toList → p.HasName := by
    simp only [Element.properties, List.mem_filter, decide_eq_true_eq, and_imp]
  rw [liveModules_eq, List.forall_mem_cons]
  constructor
  · rintro ⟨h, hmodules⟩
    exact ⟨h.hasName, hproperties.mp h.properties, hmodules⟩
  · rintro ⟨hname, h⟩
    exact ⟨⟨hname, hproperties.mpr h.properties⟩, h.modules⟩

theorem forall_live_hasName_iff :
    ((∀ m, LiveModule e m → m.HasName) ∧ ∀ p, LiveProperty e p → p.HasName) ↔
      e.HasName ∧ AllNamed e.children := by
  rw [← isComplete_liveModules_iff]
  constructor
  · rintro ⟨hmodules, hproperties⟩ m hm
    have hlive := mem_liveModules_iff.mp hm
    exact ⟨hmodules m hlive, fun p hp => hproperties p ⟨m, hlive, hp⟩⟩
  · intro h
    refine ⟨fun m hm => (h m (mem_liveModules_iff.mpr hm)).hasName, ?_⟩
    rintro p ⟨m, hm, hp⟩
    exact (h m (mem_liveModules_iff.mpr hm)).properties p hp

theorem allNamed_nil : AllNamed [] := ⟨by simp, by simp [liveModulesAll]⟩

theorem allNamed_cons_iff :
    AllNamed (e :: es) ↔ (e.name = "property".toList → e.HasName) ∧
      (e.name = "module".toList → e.HasName ∧ AllNamed e.children) ∧ AllNamed es := by
  have hmodules : (∀ m ∈ liveModulesAll (e :: es), m.IsComplete) ↔
      (e.name = "module".toList → ∀ m ∈ e.liveModules, m.IsComplete) ∧
        ∀ m ∈ liveModulesAll es, m.IsComplete := by
    rw [liveModulesAll]
    split_ifs with hm
    · rw [List.forall_mem_append, forall_prop_of_true hm]
    · rw [forall_prop_of_false hm, true_and]
  rw [← isComplete_liveModules_iff]
  constructor
  · rintro ⟨hp, hm⟩
    obtain ⟨hfirst, hrest⟩ := List.forall_mem_cons.mp hp
    exact ⟨hfirst, (hmodules.mp hm).1, hrest, (hmodules.mp hm).2⟩
  · rintro ⟨hfirst, hmodule, hrest⟩
    exact ⟨List.forall_mem_cons.mpr ⟨hfirst, hrest.properties⟩,
      hmodules.mpr ⟨hmodule, hrest.modules⟩⟩

end AllNamed

/-! ### Trees that describe modules -/

/-- Ordinary attributes with values that spell something. -/
structure OrdinaryAttributes (as : List Attribute) : Prop where
  plain : PlainAttributes as
  spelled : ∀ a ∈ as, ∃ s, Spells s a.value

/-- An element with ordinary names and attributes, and only such elements in it. -/
inductive Element.IsOrdinary : Element → Prop where
  | mk {name : List Char} {as : List Attribute} {children : List Element}
      (hn : IsPlainName name) (ha : OrdinaryAttributes as) (hc : ∀ e ∈ children, e.IsOrdinary) :
      IsOrdinary (.mk name as children)

theorem Element.IsOrdinary.isPlainName {e : Element} (h : e.IsOrdinary) : IsPlainName e.name := by
  cases h
  assumption

theorem Element.IsOrdinary.children {e : Element} (h : e.IsOrdinary) :
    ∀ c ∈ e.children, c.IsOrdinary := by
  cases h
  assumption

section Attributes

variable {as : List Attribute}

theorem OrdinaryAttributes.exists_says (h : OrdinaryAttributes as) {key : String}
    (hk : ∃ a ∈ as, a.key = key.toList) : ∃ v, Says as key v := by
  obtain ⟨⟨_, raw⟩, ha, rfl⟩ := hk
  obtain ⟨s, hs⟩ := h.spelled _ ha
  exact ⟨String.ofList s, raw, ha, by rwa [String.toList_ofList]⟩

theorem OrdinaryAttributes.exists_describesModule (h : OrdinaryAttributes as)
    (hn : ∃ a ∈ as, a.key = "name".toList) : ∃ n, DescribesModule as n := by
  obtain ⟨n, hs⟩ := h.exists_says hn
  exact ⟨n, h.plain, hs⟩

theorem OrdinaryAttributes.exists_describesProperty (h : OrdinaryAttributes as)
    (hn : ∃ a ∈ as, a.key = "name".toList) : ∃ n v, DescribesProperty as n v := by
  obtain ⟨n, hs⟩ := h.exists_says hn
  by_cases hv : ∃ a ∈ as, a.key = "value".toList
  · obtain ⟨v, hv⟩ := h.exists_says hv
    exact ⟨n, v, h.plain, hs, .inl hv⟩
  · exact ⟨n, "", h.plain, hs, .inr ⟨rfl, fun a ha hk => hv ⟨a, ha, hk⟩⟩⟩

end Attributes

/-- If all that is live has a name, the children of a module describe something. -/
theorem exists_describes {es : List Element} (ho : ∀ e ∈ es, e.IsOrdinary)
    (hi : ∀ e ∈ es, AllNamed e.children → ∃ qs us, Describes e.children qs us)
    (hn : AllNamed es) : ∃ ps ts, Describes es ps ts := by
  induction es with
  | nil => exact ⟨[], [], .nil⟩
  | cons e r ih =>
    obtain ⟨he, hr⟩ := List.forall_mem_cons.mp ho
    obtain ⟨hie, hir⟩ := List.forall_mem_cons.mp hi
    obtain ⟨hproperty, hmodule, hnr⟩ := allNamed_cons_iff.mp hn
    obtain ⟨ps, ts, hrest⟩ := ih hr hir hnr
    cases he with
    | @mk name as children hname ha hc =>
      by_cases hm : name = "module".toList
      · subst hm
        obtain ⟨hhas, hinner⟩ := hmodule rfl
        obtain ⟨n, hn⟩ := ha.exists_describesModule hhas
        obtain ⟨qs, us, hi⟩ := hie hinner
        exact ⟨ps, .node n qs us :: ts, .module hn hi hrest⟩
      · by_cases hp : name = "property".toList
        · subst hp
          obtain ⟨n, v, hn⟩ := ha.exists_describesProperty (hproperty rfl)
          exact ⟨(n, v) :: ps, ts, .property hn (fun d hd => (hc d hd).isPlainName) hrest⟩
        · exact ⟨ps, ts, .other hname hm hp hrest⟩

theorem Element.IsOrdinary.exists_describes {e : Element} (h : e.IsOrdinary)
    (hn : AllNamed e.children) : ∃ ps ts, Describes e.children ps ts := by
  induction h with
  | mk _ _ hc ih => exact Xml.exists_describes hc ih hn

/-! ### Modules in order -/

/-- The element has the name, and its properties have the names and values. -/
structure DescribesNode (e : Element) (n : String × List (String × String)) : Prop where
  name : Says e.attributes "name" n.1
  properties : List.Forall₂ (fun p q => DescribesProperty p.attributes q.1 q.2) e.properties n.2

/-- The live modules among children are the nodes of the trees that the children describe. -/
theorem Describes.live {es : List Element} {ps : List (String × String)} {ts : List ModuleTree}
    (h : Describes es ps ts) :
    List.Forall₂ (fun p q => DescribesProperty p.attributes q.1 q.2)
        (es.filter (·.name = "property".toList)) ps ∧
      List.Forall₂ DescribesNode (liveModulesAll es) (ModuleTree.nodesAll ts) := by
  have hne : "property".toList ≠ "module".toList := by decide
  have not_isProperty {name : List Char} (h : name ≠ "property".toList) :
      ¬ decide (name = "property".toList) = true := by rwa [decide_eq_true_eq]
  induction h with
  | nil =>
    rw [liveModulesAll, ModuleTree.nodesAll]
    exact ⟨.nil, .nil⟩
  | other hn hm hp h ih =>
    rw [List.filter_cons, liveModulesAll, name_mk, if_neg (not_isProperty hp), if_neg hm]
    exact ih
  | property ha hi h ih =>
    rw [List.filter_cons, liveModulesAll, name_mk, if_pos (decide_eq_true rfl), if_neg hne]
    exact ⟨.cons ha ih.1, ih.2⟩
  | module ha hi h ihi ih =>
    rw [List.filter_cons, liveModulesAll, name_mk, if_neg (not_isProperty hne.symm), if_pos rfl,
      liveModules_eq, ModuleTree.nodesAll, ModuleTree.nodes]
    exact ⟨ih.1, List.rel_append (.cons ⟨ha.saysName, ihi.1⟩ ihi.2) ih.2⟩

/-- The module has the name of the element, and the last values of its properties. -/
structure LoadedAs (e : Element) (m : Module) : Prop where
  name : Says e.attributes "name" m.name
  properties : ∃ ps, List.Forall₂ (fun p q => DescribesProperty p.attributes q.1 q.2)
    e.properties ps ∧ m.properties.HoldsLast ps

theorem DescribesRoot.live {e : Element} {t : ModuleTree} (h : DescribesRoot e t) :
    List.Forall₂ LoadedAs e.liveModules t.flatten := by
  have hnodes : List.Forall₂ DescribesNode e.liveModules t.nodes := by
    cases h with
    | mk ha hi =>
      rw [liveModules_eq, ModuleTree.nodes]
      exact .cons ⟨ha.saysName, hi.live.1⟩ hi.live.2
  rw [ModuleTree.flatten_eq, List.forall₂_map_right_iff]
  exact hnodes.imp fun d n hd => ⟨hd.name, n.2, hd.properties, Entries.holdsLast_ofList n.2⟩

end CamelLint.Xml
