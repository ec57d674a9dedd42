import CamelLint.Proofs.Xml.Reading

/-! The children of a module. Properties and modules may be mixed, with other children
between them: a list is gathered when its first member comes up, and the children
that are held back still stand for the other list. At most two lists are gathered,
so the content of a module is read to its end. By induction, an element is read as
the module tree that it describes, and so is the root of a document. -/

namespace CamelLint.Xml

/-! ### Lists -/

namespace Child

variable {c : Child} {l : Listing}

/-- A child that belongs to a list under the plain name of the list. -/
def IsOf (c : Child) (l : Listing) : Prop := c.listing? = some (l.label.toList, l)

theorem IsOf.hasName_iff (h : c.IsOf l) (m : Listing) :
    c.hasName m.label.toList = true ↔ l = m := by
  obtain ⟨node, asModule⟩ := c
  cases node with
  | element name cs content closed =>
    have hname : name = l.label.toList := by
      simp only [IsOf, listing?, Option.map_eq_some_iff, Prod.mk.injEq] at h
      obtain ⟨_, -, hn, -⟩ := h
      exact hn
    subst hname
    rw [hasName, decide_eq_true_eq]
    cases l <;> cases m <;> decide
  | char c => cases h
  | cdata s => cases h
  | reference name => cases h
  | doctype => cases h

theorem not_hasName_of_listing?_eq_none (h : c.listing? = none) (l : Listing) :
    ¬ c.hasName l.label.toList = true := by
  obtain ⟨node, asModule⟩ := c
  cases node with
  | element name cs content closed =>
    rw [hasName, decide_eq_true_eq]
    rintro rfl
    cases l <;> cases h
  | char c => exact Bool.false_ne_true
  | cdata s => exact Bool.false_ne_true
  | reference name => exact Bool.false_ne_true
  | doctype => exact Bool.false_ne_true

end Child

/-- Children that are read as properties and as modules, each in order. -/
inductive Reads : List Child → List (String × String) → List ModuleTree → Prop where
  | nil : Reads [] [] []
  | other {c : Child} {r : List Child} {ps : List (String × String)} {ts : List ModuleTree}
      (hl : c.listing? = none) (hs : c.node.isSound = true)
      (ha : ∀ fields : Fields, fields.addNode [.name] c.node = .ok fields) (h : Reads r ps ts) :
      Reads (c :: r) ps ts
  | property {c : Child} {r : List Child} {p : String × String} {ps : List (String × String)}
      {ts : List ModuleTree} (hl : c.IsOf .properties) (hs : c.node.isSound = true)
      (hp : readProperty c.node = .ok p) (h : Reads r ps ts) : Reads (c :: r) (p :: ps) ts
  | module {c : Child} {r : List Child} {t : ModuleTree} {ps : List (String × String)}
      {ts : List ModuleTree} (hl : c.IsOf .modules) (hs : c.node.isSound = true)
      (ht : c.asModule = .ok t) (h : Reads r ps ts) : Reads (c :: r) ps (t :: ts)

namespace Draft

section Gather

variable {α : Type} {name : List Char} {read : Child → Except Fault α} {c : Child}
  {r held : List Child} {a : α} {as : List α}

theorem gather_member (hc : c.hasName name = true) (ha : read c = .ok a)
    (hr : gather name read r = .ok (as, held)) :
    gather name read (c :: r) = .ok (a :: as, held) := by
  rw [gather, if_pos hc, ha, hr]
  rfl

theorem gather_other (hc : ¬ c.hasName name = true) (hs : c.node.isSound = true)
    (hr : gather name read r = .ok (as, held)) :
    gather name read (c :: r) = .ok (as, c :: held) := by
  rw [gather, if_neg hc, if_pos hs, hr]
  rfl

end Gather

variable {cs : List Child} {ps : List (String × String)} {ts : List ModuleTree}

/-- Gathering the properties leaves the modules. -/
theorem gather_properties (h : Reads cs ps ts) :
    ∃ held,
      gather Listing.properties.label.toList (fun c => readProperty c.node) cs = .ok (ps, held) ∧
      Reads held [] ts := by
  induction h with
  | nil => exact ⟨[], rfl, .nil⟩
  | @other c r ps ts hl hs ha h ih =>
    obtain ⟨held, hr, hh⟩ := ih
    have hname := Child.not_hasName_of_listing?_eq_none hl .properties
    exact ⟨c :: held, gather_other hname hs hr, .other hl hs ha hh⟩
  | property hl hs hp h ih =>
    obtain ⟨held, hr, hh⟩ := ih
    exact ⟨held, gather_member ((hl.hasName_iff .properties).mpr rfl) hp hr, hh⟩
  | @module c r t ps ts hl hs ht h ih =>
    obtain ⟨held, hr, hh⟩ := ih
    have hname : ¬ c.hasName Listing.properties.label.toList = true := by
      rw [hl.hasName_iff]
      decide
    exact ⟨c :: held, gather_other hname hs hr, .module hl hs ht hh⟩

/-- Gathering the modules leaves the properties. -/
theorem gather_modules (h : Reads cs ps ts) :
    ∃ held, gather Listing.modules.label.toList (·.asModule) cs = .ok (ts, held) ∧
      Reads held ps [] := by
  induction h with
  | nil => exact ⟨[], rfl, .nil⟩
  | @other c r ps ts hl hs ha h ih =>
    obtain ⟨held, hr, hh⟩ := ih
    have hname := Child.not_hasName_of_listing?_eq_none hl .modules
    exact ⟨c :: held, gather_other hname hs hr, .other hl hs ha hh⟩
  | @property c r p ps ts hl hs hp h ih =>
    obtain ⟨held, hr, hh⟩ := ih
    have hname : ¬ c.hasName Listing.modules.label.toList = true := by
      rw [hl.hasName_iff]
      decide
    exact ⟨c :: held, gather_other hname hs hr, .property hl hs hp hh⟩
  | module hl hs ht h ih =>
    obtain ⟨held, hr, hh⟩ := ih
    exact ⟨held, gather_member ((hl.hasName_iff .modules).mpr rfl) ht hr, hh⟩

theorem lead_other {c : Child} {r : List Child} {p : Draft} (hl : c.listing? = none)
    (ha : p.fields.addNode [.name] c.node = .ok p.fields) : p.lead (c :: r) = p.lead r := by
  rw [lead, hl, addNode, ha]
  rfl

/-- The children in front of the first list change nothing; without a list, there are none. -/
theorem lead_eq (p : Draft) (h : Reads cs ps ts) :
    ∃ rest, p.lead cs = .ok (p, rest) ∧ Reads rest ps ts ∧
      (nextListing? rest = none ∧ ps = [] ∧ ts = [] ∨
        nextListing? rest = some (Listing.properties.label.toList, .properties) ∧ ps ≠ [] ∨
        nextListing? rest = some (Listing.modules.label.toList, .modules) ∧ ts ≠ []) := by
  induction h with
  | nil => exact ⟨[], rfl, .nil, .inl ⟨rfl, rfl, rfl⟩⟩
  | other hl hs ha h ih =>
    rw [lead_other hl (ha p.fields)]
    exact ih
  | @property c r q ps ts hl hs hp h ih =>
    refine ⟨c :: r, ?_, .property hl hs hp h, .inr (.inl ⟨hl, List.cons_ne_nil q ps⟩)⟩
    rw [lead, hl]
  | @module c r t ps ts hl hs ht h ih =>
    refine ⟨c :: r, ?_, .module hl hs ht h, .inr (.inr ⟨hl, List.cons_ne_nil t ts⟩)⟩
    rw [lead, hl]

/-- The draft with the lists that have members. -/
def withLists (p : Draft) (ps : List (String × String)) (ts : List ModuleTree) : Draft :=
  { p with
    properties := if ps = [] then p.properties else some ps
    modules := if ts = [] then p.modules else some ts }

/-- How many lists have members. -/
def listCount (ps : List (String × String)) (ts : List ModuleTree) : Nat :=
  (if ps = [] then 0 else 1) + (if ts = [] then 0 else 1)

theorem listCount_le (ps : List (String × String)) (ts : List ModuleTree) :
    listCount ps ts ≤ 2 := by
  unfold listCount
  split_ifs <;> omega

/-- The content of a module is read to its end, as long as there are lists left for its
members. -/
theorem readContent_eq (unread : Nat) (p : Draft) (h : Reads cs ps ts)
    (hp : ps ≠ [] → p.properties = none) (ht : ts ≠ [] → p.modules = none)
    (hu : listCount ps ts ≤ unread) : readContent true unread p cs = .ok (p.withLists ps ts) := by
  induction unread generalizing p cs ps ts with
  | zero =>
    obtain ⟨rest, hlead, -, ⟨hnext, rfl, rfl⟩ | ⟨-, hne⟩ | ⟨-, hne⟩⟩ := lead_eq p h
    · rw [readContent, hlead]
      simp only [hnext, finish, if_true, withLists]
    · rw [listCount, if_neg hne] at hu
      omega
    · rw [listCount, if_neg hne] at hu
      omega
  | succ unread ih =>
    obtain ⟨rest, hlead, hrest, ⟨hnext, rfl, rfl⟩ | ⟨hnext, hne⟩ | ⟨hnext, hne⟩⟩ := lead_eq p h
    · rw [readContent, hlead]
      simp only [hnext, finish, if_true, withLists]
    · obtain ⟨held, hgather, hheld⟩ := gather_properties hrest
      have hunset : ¬ p.has .properties = true := by simp [has, hp hne]
      have hcount : listCount [] ts ≤ unread := by
        rw [listCount, if_neg hne] at hu
        rw [listCount, if_pos rfl]
        omega
      have hnext' := ih { p with properties := some ps } hheld (absurd rfl) ht hcount
      rw [readContent, hlead]
      simp only [hnext, if_neg hunset, readList, hgather, bind, Except.bind, pure, Except.pure,
        if_true, hnext']
      simp [withLists, hne]
    · obtain ⟨held, hgather, hheld⟩ := gather_modules hrest
      have hunset : ¬ p.has .modules = true := by simp [has, ht hne]
      have hcount : listCount ps [] ≤ unread := by
        rw [listCount, if_neg hne] at hu
        rw [listCount, if_pos rfl]
        omega
      have hnext' := ih { p with modules := some ts } hheld hp (absurd rfl) hcount
      rw [readContent, hlead]
      simp only [hnext, if_neg hunset, readList, hgather, bind, Except.bind, pure, Except.pure,
        if_true, hnext']
      simp [withLists, hne]

end Draft

/-! ### Modules -/

theorem assemble_eq {name cs : List Char} {as : List Attribute} {children : List Child}
    {n : String} {ps : List (String × String)} {ts : List ModuleTree}
    (ht : IsTag KeepsReserved name as cs) (ha : DescribesModule as n) (hc : Reads children ps ts) :
    assemble cs children true = .ok (.node n ps ts) := by
  obtain ⟨fields, hfields, hname⟩ := ht.ofAttributes_module ha
  have hcontent := Draft.readContent_eq 2 { fields } hc (fun _ => rfl) (fun _ => rfl)
    (Draft.listCount_le ps ts)
  have hps : (Draft.withLists { fields } ps ts).properties.getD [] = ps := by
    by_cases hp : ps = [] <;> simp [Draft.withLists, hp]
  have hts : (Draft.withLists { fields } ps ts).modules.getD [] = ts := by
    by_cases hm : ts = [] <;> simp [Draft.withLists, hm]
  simp only [assemble, hfields, hcontent, bind, Except.bind, hps, hts]
  simp only [Draft.withLists, hname]
  rfl

/-- An element that no list takes, and that has an ordinary name. -/
theorem listing?_of_plain {name cs : List Char} {content : List Node} {closed : Bool}
    {asModule : Except Fault ModuleTree} (hn : IsPlainName name) (hm : name ≠ "module".toList)
    (hp : name ≠ "property".toList) :
    (Child.mk (.element name cs content closed) asModule).listing? = none := by
  have hfind : Listing.ofElement? name = none := by
    rw [Listing.ofElement?, localName_of_plain hn, List.find?_eq_none]
    intro l _ heq
    cases l with
    | properties => exact hp (of_decide_eq_true heq)
    | modules => exact hm (of_decide_eq_true heq)
  simp only [Child.listing?, hfind, Option.map_none]

theorem listing?_of_isText {n : Node} {asModule : Except Fault ModuleTree} (h : n.IsText) :
    (Child.mk n asModule).listing? = none := by
  cases n with
  | element name cs content closed => exact h.elim
  | _ => rfl

/-- The nodes of content are read as what its elements describe. The induction is on the
nodes, so that it also covers the modules in modules. -/
theorem NodesOf.reads {es : List Element} {ns : List Node} (h : NodesOf KeepsReserved es ns)
    {ps : List (String × String)} {ts : List ModuleTree} (hd : Describes es ps ts) :
    Reads (childrenOf ns) ps ts := by
  induction h generalizing ps ts with
  | nil =>
    cases hd
    rw [childrenOf]
    exact .nil
  | text hn h ih =>
    rw [childrenOf]
    exact .other (listing?_of_isText hn) (Node.isSound_of_isText hn)
      (fun _ => Fields.addNode_of_isText hn) (ih hd)
  | @element name cs as inner es content ns ht hi h ihi ih =>
    have hsound := ht.isSound hi.areSound
    rw [childrenOf]
    cases hd with
    | other hn hm hp hd =>
      exact .other (listing?_of_plain hn hm hp) hsound
        (fun _ => Fields.addNode_of_plain hn hsound) (ih hd)
    | property ha hp hd => exact .property rfl hsound (readProperty_eq ht hi ha hp) (ih hd)
    | module ha hm hd =>
      refine .module rfl hsound ?_ (ih hd)
      rw [readModule]
      exact assemble_eq ht ha (ihi hm)

/-! ### Documents -/

/-- A document is read as the modules of the tree that it describes. -/
theorem Presents.parseConfig_eq {source : String} {t : ModuleTree}
    (h : Presents KeepsReserved source t) : parseConfig source = .ok ⟨t.flatten⟩ := by
  obtain ⟨e, hdoc, hd⟩ := h
  obtain ⟨before, root, hscan, hbefore, hroot⟩ := hdoc.scan_eq
  rw [String.ofList_toList] at hscan
  have htree : readModule root = .ok t := by
    cases hd with
    | mk ha hi => cases hroot with
      | element ht hc _ =>
        rw [readModule]
        exact assemble_eq ht ha (hc.reads hi)
      | text hn h => cases h
  simp only [parseConfig, hscan, Document.moduleTree, hbefore, bind, Except.bind, htree]
  rfl

end CamelLint.Xml
