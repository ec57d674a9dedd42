import CamelLint.Config.Load
import CamelLint.Proofs.Xml.Liveness

/-! Which trees are configurations: those in which all that is live has a name. A name that
is missing in a child is found when the list of the child is gathered, before or after
other children; since nothing else can be amiss, the order does not matter. -/

namespace CamelLint.Xml

/-- What is reported of a module or property without a name. -/
def nameless : Fault := .misfit (.missingField Field.name.label)

/-! ### Tags without a name -/

/-- The fields of an ordinary tag can be read; without a name, they have none. -/
theorem IsTag.ofAttributes_ordinary {allowed : List Attribute → Prop} {name cs : List Char}
    {as : List Attribute} (ht : IsTag allowed name as cs) (ha : OrdinaryAttributes as)
    (wanted : List Field) :
    ∃ fields, Fields.ofAttributes wanted cs = .ok fields ∧
      ((¬ ∃ a ∈ as, a.key = "name".toList) → fields.requireName = .error nameless) := by
  have hw : ∀ f ∈ wanted, (∃ v, Says as f.attribute v) ∨ ∀ a ∈ as, a.key ≠ f.key := by
    intro f _
    by_cases hk : ∃ a ∈ as, a.key = f.key
    · exact .inl (ha.exists_says hk)
    · exact .inr fun a ha hka => hk ⟨a, ha, hka⟩
  obtain ⟨fields, hok, -, hunset⟩ := ht.ofAttributes ha.plain wanted hw
  refine ⟨fields, hok, ?_⟩
  intro hn
  have hnone : fields.name = none := hunset .name fun _ a ha hk => hn ⟨a, ha, hk⟩
  rw [Fields.requireName, hnone, nameless]

theorem readProperty_nameless {name cs : List Char} {as : List Attribute} {inner : List Element}
    {content : List Node} (ht : IsTag KeepsReserved name as cs) (ha : OrdinaryAttributes as)
    (hc : NodesOf KeepsReserved inner content) (hi : ∀ e ∈ inner, IsPlainName e.name)
    (hn : ¬ ∃ a ∈ as, a.key = "name".toList) :
    readProperty (.element name cs content true) = .error nameless := by
  obtain ⟨fields, hfields, hname⟩ := ht.ofAttributes_ordinary ha propertyFields
  simp only [readProperty, hfields, bind, Except.bind, hc.foldlM_addNode hi, if_true, hname hn]

/-! ### Children that lack a name -/

/-- A node as a child, to be read as a module or not. -/
def Child.ofNode (n : Node) : Child := ⟨n, readModule n⟩

theorem childrenOf_cons (n : Node) (ns : List Node) :
    childrenOf (n :: ns) = .ofNode n :: childrenOf ns := by
  rw [childrenOf, Child.ofNode]

namespace Child

/-- Read as a member of the list, the child gives something. -/
def Yields (c : Child) : Listing → Prop
  | .properties => ∃ p, readProperty c.node = .ok p
  | .modules => ∃ t, c.asModule = .ok t

/-- Read as a member of the list, the child, or something in it, lacks a name. -/
def Lacks (c : Child) : Listing → Prop
  | .properties => readProperty c.node = .error nameless
  | .modules => c.asModule = .error nameless

/-- A child that changes nothing, or one in which only a name may be amiss. -/
structure IsTame (c : Child) : Prop where
  isSound : c.node.isSound = true
  kind : (c.listing? = none ∧ ∀ fields : Fields, fields.addNode [.name] c.node = .ok fields) ∨
    ∃ l, c.IsOf l ∧ (c.Yields l ∨ c.Lacks l)

theorem IsTame.of_hasName {c : Child} (h : c.IsTame) {l : Listing}
    (hn : c.hasName l.label.toList = true) : c.IsOf l ∧ (c.Yields l ∨ c.Lacks l) := by
  rcases h.kind with ⟨hnone, -⟩ | ⟨m, hm, hr⟩
  · exact absurd hn (not_hasName_of_listing?_eq_none hnone l)
  · obtain rfl := (hm.hasName_iff l).mp hn
    exact ⟨hm, hr⟩

end Child

/-- Some child lacks a name. -/
def Lacking (cs : List Child) : Prop := ∃ l, ∃ c ∈ cs, c.IsOf l ∧ c.Lacks l

theorem Lacking.cons (c : Child) {cs : List Child} (h : Lacking cs) : Lacking (c :: cs) := by
  obtain ⟨l, d, hd, hl⟩ := h
  exact ⟨l, d, List.mem_cons_of_mem c hd, hl⟩

namespace Draft

section Gather

variable {α : Type} {name : List Char} {read : Child → Except Fault α} {cs : List Child}
  {fault : Fault}

/-- One member that fails makes gathering fail, if the others fail in the same way or not at
all. -/
theorem gather_error (hs : ∀ c ∈ cs, c.node.isSound = true)
    (hr : ∀ c ∈ cs, c.hasName name = true → (∃ a, read c = .ok a) ∨ read c = .error fault)
    (h : ∃ c ∈ cs, c.hasName name = true ∧ read c = .error fault) :
    gather name read cs = .error fault := by
  induction cs with
  | nil => simp at h
  | cons c r ih =>
    obtain ⟨hsc, hsr⟩ := List.forall_mem_cons.mp hs
    obtain ⟨hrc, hrr⟩ := List.forall_mem_cons.mp hr
    have hlater : (¬ (c.hasName name = true ∧ read c = .error fault)) →
        gather name read r = .error fault := fun hc =>
      ih hsr hrr ((List.exists_mem_cons_iff ..).mp h |>.resolve_left hc)
    by_cases hn : c.hasName name = true
    · rw [gather, if_pos hn]
      rcases hrc hn with ⟨a, ha⟩ | he
      · rw [ha, hlater (by simp [ha])]
        rfl
      · rw [he]
        rfl
    · rw [gather, if_neg hn, if_pos hsc, hlater fun hc => hn hc.1]
      rfl

/-- If all members can be read, the others are held back. -/
theorem gather_ok (hs : ∀ c ∈ cs, c.node.isSound = true)
    (hr : ∀ c ∈ cs, c.hasName name = true → ∃ a, read c = .ok a) :
    ∃ as, gather name read cs = .ok (as, cs.filter fun c => !c.hasName name) := by
  induction cs with
  | nil => exact ⟨[], rfl⟩
  | cons c r ih =>
    obtain ⟨hsc, hsr⟩ := List.forall_mem_cons.mp hs
    obtain ⟨hrc, hrr⟩ := List.forall_mem_cons.mp hr
    obtain ⟨as, has⟩ := ih hsr hrr
    by_cases hn : c.hasName name = true
    · obtain ⟨a, ha⟩ := hrc hn
      exact ⟨a :: as, by rw [List.filter_cons_of_neg (by simp [hn]), gather_member hn ha has]⟩
    · exact ⟨as, by rw [List.filter_cons_of_pos (by simp [hn]), gather_other hn hsc has]⟩

end Gather

variable {cs : List Child} {p : Draft} {l : Listing}

theorem readList_lacking (ht : ∀ c ∈ cs, c.IsTame) (h : ∃ c ∈ cs, c.IsOf l ∧ c.Lacks l) :
    p.readList l.label.toList cs l = .error nameless := by
  obtain ⟨c, hc, hl, hlacks⟩ := h
  have hs : ∀ c ∈ cs, c.node.isSound = true := fun c hc => (ht c hc).isSound
  have hr : ∀ c ∈ cs, c.hasName l.label.toList = true → c.Yields l ∨ c.Lacks l :=
    fun c hc hn => ((ht c hc).of_hasName hn).2
  have hn : c.hasName l.label.toList = true := (hl.hasName_iff l).mpr rfl
  cases l with
  | properties =>
    have hgather : gather _ (fun c => readProperty c.node) cs = .error nameless :=
      gather_error hs hr ⟨c, hc, hn, hlacks⟩
    rw [readList, hgather]
    rfl
  | modules =>
    have hgather : gather _ (·.asModule) cs = .error nameless :=
      gather_error hs hr ⟨c, hc, hn, hlacks⟩
    rw [readList, hgather]
    rfl

/-- Reading a list sets it, and holds back what does not belong to it. -/
theorem readList_yielding (p : Draft) (ht : ∀ c ∈ cs, c.IsTame)
    (h : ∀ c ∈ cs, c.IsOf l → ¬ c.Lacks l) :
    ∃ q, p.readList l.label.toList cs l =
        .ok (q, cs.filter fun c => !c.hasName l.label.toList) ∧
      q.has l = true ∧ ∀ m ≠ l, q.has m = p.has m := by
  have hs : ∀ c ∈ cs, c.node.isSound = true := fun c hc => (ht c hc).isSound
  have hr : ∀ c ∈ cs, c.hasName l.label.toList = true → c.Yields l := by
    intro c hc hn
    obtain ⟨hl, hr⟩ := (ht c hc).of_hasName hn
    exact hr.resolve_right (h c hc hl)
  cases l with
  | properties =>
    obtain ⟨ps, hgather⟩ : ∃ ps, gather _ (fun c => readProperty c.node) cs = .ok (ps, _) :=
      gather_ok hs hr
    refine ⟨{ p with properties := some ps }, ?_, rfl, ?_⟩
    · rw [readList, hgather]
      rfl
    · intro m hm
      cases m with
      | properties => exact absurd rfl hm
      | modules => rfl
  | modules =>
    obtain ⟨ts, hgather⟩ := gather_ok hs hr
    refine ⟨{ p with modules := some ts }, ?_, rfl, ?_⟩
    · rw [readList, hgather]
      rfl
    · intro m hm
      cases m with
      | properties => rfl
      | modules => exact absurd rfl hm

/-- Children in front of the first list are passed over. -/
theorem lead_tame (p : Draft) (ht : ∀ c ∈ cs, c.IsTame) :
    ∃ rest, p.lead cs = .ok (p, rest) ∧ (∀ c ∈ rest, c ∈ cs) ∧
      (∀ c ∈ cs, ∀ l, c.IsOf l → c ∈ rest) ∧
      (rest = [] ∨ ∃ l, nextListing? rest = some (l.label.toList, l) ∧ ∃ c ∈ rest, c.IsOf l) := by
  induction cs with
  | nil => exact ⟨[], rfl, by simp, by simp, .inl rfl⟩
  | cons c r ih =>
    obtain ⟨hc, hr⟩ := List.forall_mem_cons.mp ht
    rcases hc.kind with ⟨hnone, hpass⟩ | ⟨l, hl, -⟩
    · obtain ⟨rest, hlead, hsub, hmem, hnext⟩ := ih hr
      refine ⟨rest, by rw [lead_other hnone (hpass p.fields), hlead], ?_, ?_, hnext⟩
      · exact fun d hd => List.mem_cons_of_mem c (hsub d hd)
      · intro d hd m hm
        rcases List.mem_cons.mp hd with rfl | hd
        · rw [Child.IsOf, hnone] at hm
          cases hm
        · exact hmem d hd m hm
    · refine ⟨c :: r, by rw [lead, hl], fun _ h => h, fun d hd _ _ => hd, .inr ⟨l, hl, c, ?_, hl⟩⟩
      exact List.mem_cons_self

theorem mem_held_iff {c : Child} {m : Listing} (hm : c.IsOf m) :
    (c ∈ cs.filter fun c => !c.hasName l.label.toList) ↔ c ∈ cs ∧ m ≠ l := by
  rw [List.mem_filter, Bool.not_eq_true', ← Bool.not_eq_true, hm.hasName_iff l]

/-- How many lists are not read yet. -/
def unset (p : Draft) : Nat :=
  (if p.has .properties then 0 else 1) + (if p.has .modules then 0 else 1)

theorem unset_pos (h : p.has l = false) : 0 < p.unset := by
  cases l <;> simp [unset, h]

theorem unset_lt {q : Draft} (hp : p.has l = false) (hq : q.has l = true)
    (hkeep : ∀ m ≠ l, q.has m = p.has m) : q.unset < p.unset := by
  cases l with
  | properties => simp [unset, hp, hq, hkeep .modules (by decide)]
  | modules => simp [unset, hp, hq, hkeep .properties (by decide)]

/-- A name that is missing in a child is found in the end, in the first list or in what is held
back. -/
theorem readContent_lacking (unread : Nat) (p : Draft) (ht : ∀ c ∈ cs, c.IsTame)
    (hp : ∀ l, (∃ c ∈ cs, c.IsOf l) → p.has l = false) (hu : p.unset ≤ unread)
    (h : Lacking cs) : readContent true unread p cs = .error nameless := by
  -- lists with members left are never read before, and as many may be read as are not
  obtain ⟨m, d, hd, hm, hlacks⟩ := h
  induction unread generalizing p cs with
  | zero =>
    have hpos := unset_pos (hp m ⟨d, hd, hm⟩)
    omega
  | succ unread ih =>
    obtain ⟨rest, hlead, hsub, hmem, rfl | ⟨l, hnext, hl⟩⟩ := lead_tame p ht
    · exact absurd (hmem d hd m hm) List.not_mem_nil
    · have htr : ∀ c ∈ rest, c.IsTame := fun c hc => ht c (hsub c hc)
      have hunset : p.has l = false := hp l (hl.imp fun c hc => ⟨hsub c hc.1, hc.2⟩)
      rw [readContent, hlead]
      simp only [hnext, hunset, Bool.false_eq_true, if_false, if_true]
      by_cases hfirst : ∃ c ∈ rest, c.IsOf l ∧ c.Lacks l
      · rw [readList_lacking htr hfirst]
      · have hyield : ∀ c ∈ rest, c.IsOf l → ¬ c.Lacks l := fun c hc hcl hlk =>
          hfirst ⟨c, hc, hcl, hlk⟩
        obtain ⟨q, hread, hset, hkeep⟩ := readList_yielding p htr hyield
        rw [hread]
        -- the child is in the other list, so it is held back
        have hheld : d ∈ rest.filter fun c => !c.hasName l.label.toList := by
          refine (mem_held_iff hm).mpr ⟨hmem d hd m hm, ?_⟩
          rintro rfl
          exact hyield d (hmem d hd m hm) hm hlacks
        refine ih q ?_ ?_ ?_ hheld
        · exact fun c hc => htr c (List.mem_of_mem_filter hc)
        · rintro k ⟨c, hc, hk⟩
          obtain ⟨hrest, hne⟩ := (mem_held_iff hk).mp hc
          rw [hkeep k hne, hp k ⟨c, hsub c hrest, hk⟩]
        · have := unset_lt hunset hset hkeep
          omega

end Draft

/-! ### Modules that lack a name -/

section Modules

variable {name cs : List Char} {as : List Attribute} {children : List Child}

theorem assemble_lacking (ht : IsTag KeepsReserved name as cs) (ha : OrdinaryAttributes as)
    (hc : ∀ c ∈ children, c.IsTame) (h : Lacking children) :
    assemble cs children true = .error nameless := by
  obtain ⟨fields, hfields, -⟩ := ht.ofAttributes_ordinary ha [.name]
  have hunset : ∀ l, (∃ c ∈ children, c.IsOf l) → Draft.has { fields } l = false := by
    intro l _
    cases l <;> rfl
  have hcontent := Draft.readContent_lacking 2 { fields } hc hunset (by rfl) h
  simp only [assemble, hfields, hcontent, bind, Except.bind]

theorem assemble_nameless {ps : List (String × String)} {ts : List ModuleTree}
    (ht : IsTag KeepsReserved name as cs) (ha : OrdinaryAttributes as) (hc : Reads children ps ts)
    (hn : ¬ ∃ a ∈ as, a.key = "name".toList) : assemble cs children true = .error nameless := by
  obtain ⟨fields, hfields, hname⟩ := ht.ofAttributes_ordinary ha [.name]
  have hcontent := Draft.readContent_eq 2 { fields } hc (fun _ => rfl) (fun _ => rfl)
    (Draft.listCount_le ps ts)
  simp only [assemble, hfields, hcontent, bind, Except.bind]
  simp only [Draft.withLists, hname hn]

variable {inner : List Element} {content : List Node}

/-- A module is read if its name is there and nothing in it lacks one. -/
theorem readModule_named (ht : IsTag KeepsReserved name as cs)
    (hi : NodesOf KeepsReserved inner content) (ho : (Element.mk name as inner).IsOrdinary)
    (hn : (Element.mk name as inner).HasName ∧ AllNamed inner) :
    ∃ t, DescribesRoot (.mk name as inner) t ∧
      readModule (.element name cs content true) = .ok t := by
  obtain ⟨ps, ts, hd⟩ := ho.exists_describes hn.2
  cases ho with
  | mk _ ha _ =>
    obtain ⟨n, hdn⟩ := ha.exists_describesModule hn.1
    refine ⟨.node n ps ts, .mk hdn hd, ?_⟩
    rw [readModule]
    exact assemble_eq ht hdn (hi.reads hd)

/-- Otherwise the missing name is reported. -/
theorem readModule_nameless (ht : IsTag KeepsReserved name as cs)
    (hi : NodesOf KeepsReserved inner content) (ho : (Element.mk name as inner).IsOrdinary)
    (hc : ∀ c ∈ childrenOf content, c.IsTame) (hl : AllNamed inner ∨ Lacking (childrenOf content))
    (hn : ¬ ((Element.mk name as inner).HasName ∧ AllNamed inner)) :
    readModule (.element name cs content true) = .error nameless := by
  have hdescribes := ho.exists_describes
  cases ho with
  | mk _ ha _ =>
    rw [readModule]
    by_cases hall : AllNamed inner
    · obtain ⟨ps, ts, hd⟩ := hdescribes hall
      exact assemble_nameless ht ha (hi.reads hd) fun h => hn ⟨h, hall⟩
    · exact assemble_lacking ht ha hc (hl.resolve_left hall)

theorem isTame_module (ht : IsTag KeepsReserved "module".toList as cs)
    (hi : NodesOf KeepsReserved inner content)
    (ho : (Element.mk "module".toList as inner).IsOrdinary)
    (hc : ∀ c ∈ childrenOf content, c.IsTame)
    (hl : AllNamed inner ∨ Lacking (childrenOf content)) :
    (Child.ofNode (.element "module".toList cs content true)).IsTame ∧
      ((Element.mk "module".toList as inner).HasName ∧ AllNamed inner ∨
        (Child.ofNode (.element "module".toList cs content true)).Lacks .modules) := by
  have hsound := ht.isSound hi.areSound
  by_cases hn : (Element.mk "module".toList as inner).HasName ∧ AllNamed inner
  · obtain ⟨t, -, hread⟩ := readModule_named ht hi ho hn
    exact ⟨⟨hsound, .inr ⟨.modules, rfl, .inl ⟨t, hread⟩⟩⟩, .inl hn⟩
  · have hread := readModule_nameless ht hi ho hc hl hn
    exact ⟨⟨hsound, .inr ⟨.modules, rfl, .inr hread⟩⟩, .inr hread⟩

theorem isTame_property (ht : IsTag KeepsReserved "property".toList as cs)
    (hi : NodesOf KeepsReserved inner content)
    (ho : (Element.mk "property".toList as inner).IsOrdinary) :
    (Child.ofNode (.element "property".toList cs content true)).IsTame ∧
      ((Element.mk "property".toList as inner).HasName ∨
        (Child.ofNode (.element "property".toList cs content true)).Lacks .properties) := by
  have hsound := ht.isSound hi.areSound
  cases ho with
  | mk _ ha hinner =>
    have hplain : ∀ e ∈ inner, IsPlainName e.name := fun e he => (hinner e he).isPlainName
    by_cases hn : (Element.mk "property".toList as inner).HasName
    · obtain ⟨n, v, hd⟩ := ha.exists_describesProperty hn
      have hread := readProperty_eq ht hi hd hplain
      exact ⟨⟨hsound, .inr ⟨.properties, rfl, .inl ⟨_, hread⟩⟩⟩, .inl hn⟩
    · have hread := readProperty_nameless ht ha hi hplain hn
      exact ⟨⟨hsound, .inr ⟨.properties, rfl, .inr hread⟩⟩, .inr hread⟩

/-- An ordinary element is a child in which only a name can be amiss. -/
theorem isTame_element (ht : IsTag KeepsReserved name as cs)
    (hi : NodesOf KeepsReserved inner content) (ho : (Element.mk name as inner).IsOrdinary)
    (hc : ∀ c ∈ childrenOf content, c.IsTame)
    (hl : AllNamed inner ∨ Lacking (childrenOf content)) :
    (Child.ofNode (.element name cs content true)).IsTame ∧
      ((name = "property".toList → (Element.mk name as inner).HasName) ∧
          (name = "module".toList → (Element.mk name as inner).HasName ∧ AllNamed inner) ∨
        ∃ l, (Child.ofNode (.element name cs content true)).IsOf l ∧
          (Child.ofNode (.element name cs content true)).Lacks l) := by
  have hne : "property".toList ≠ "module".toList := by decide
  by_cases hm : name = "module".toList
  · subst hm
    obtain ⟨htame, hn | hlacks⟩ := isTame_module ht hi ho hc hl
    · exact ⟨htame, .inl ⟨fun hp => absurd hp hne.symm, fun _ => hn⟩⟩
    · exact ⟨htame, .inr ⟨.modules, rfl, hlacks⟩⟩
  · by_cases hp : name = "property".toList
    · subst hp
      obtain ⟨htame, hn | hlacks⟩ := isTame_property ht hi ho
      · exact ⟨htame, .inl ⟨fun _ => hn, fun hm => absurd hm hne⟩⟩
      · exact ⟨htame, .inr ⟨.properties, rfl, hlacks⟩⟩
    · have hname : IsPlainName name := ho.isPlainName
      have hsound := ht.isSound hi.areSound
      exact ⟨⟨hsound, .inl ⟨listing?_of_plain hname hm hp,
          fun _ => Fields.addNode_of_plain hname hsound⟩⟩,
        .inl ⟨fun h => absurd h hp, fun h => absurd h hm⟩⟩

end Modules

/-- In ordinary content only a name can be amiss, and if one is, a child shows it. The induction
is on the nodes, so that it also covers the modules in modules. -/
theorem NodesOf.tame {es : List Element} {ns : List Node} (h : NodesOf KeepsReserved es ns)
    (ho : ∀ e ∈ es, e.IsOrdinary) :
    (∀ c ∈ childrenOf ns, c.IsTame) ∧ (AllNamed es ∨ Lacking (childrenOf ns)) := by
  induction h with
  | nil =>
    rw [childrenOf]
    exact ⟨by simp, .inl allNamed_nil⟩
  | text hn h ih =>
    obtain ⟨htame, hlack⟩ := ih ho
    rw [childrenOf_cons, List.forall_mem_cons]
    refine ⟨⟨⟨Node.isSound_of_isText hn, .inl ⟨listing?_of_isText hn, ?_⟩⟩, htame⟩,
      hlack.imp_right (Lacking.cons _)⟩
    exact fun _ => Fields.addNode_of_isText hn
  | element ht hi h ihi ih =>
    obtain ⟨he, hr⟩ := List.forall_mem_cons.mp ho
    obtain ⟨htame, hlack⟩ := ih hr
    obtain ⟨htamei, hlacki⟩ := ihi he.children
    rw [childrenOf_cons, List.forall_mem_cons, allNamed_cons_iff]
    obtain ⟨hc, hnamed | ⟨l, hl⟩⟩ := isTame_element ht hi he htamei hlacki
    · exact ⟨⟨hc, htame⟩, hlack.imp (fun h => ⟨hnamed.1, hnamed.2, h⟩) (Lacking.cons _)⟩
    · exact ⟨⟨hc, htame⟩, .inr ⟨l, _, List.mem_cons_self, hl⟩⟩

/-! ### Documents -/

theorem NodesOf.keepsReserved {allowed : List Attribute → Prop} {es : List Element}
    {ns : List Node} (h : NodesOf allowed es ns) (ho : ∀ e ∈ es, e.IsOrdinary) :
    NodesOf KeepsReserved es ns := by
  induction h with
  | nil => exact .nil
  | text hn h ih => exact .text hn (ih ho)
  | element ht hi h ihi ih =>
    obtain ⟨he, hr⟩ := List.forall_mem_cons.mp ho
    cases he with
    | mk hn ha hc =>
      exact .element (ha.plain.isTag ht.isName ht.attributes ht.distinct) (ihi hc) (ih hr)

section Outcomes

variable {root : Element} {source : String}

/-- A document is what its root is read as. -/
theorem DocumentText.parse_xml_eq {allowed : List Attribute → Prop}
    (h : DocumentText allowed root source.toList) :
    ∃ node, NodesOf allowed [root] [node] ∧
      Config.parse .xml source =
        match readModule node with
        | .error fault => .error (.document .xml fault)
        | .ok t => .ok ⟨t.flatten⟩ := by
  obtain ⟨before, node, hscan, hbefore, hnode⟩ := h.scan_eq
  rw [String.ofList_toList] at hscan
  refine ⟨node, hnode, ?_⟩
  simp only [Config.parse, parseConfig, hscan, Document.moduleTree, hbefore, bind, Except.bind]
  cases readModule node <;> rfl

theorem parse_xml_of_names (h : DocumentText (fun _ => True) root source.toList)
    (ho : root.IsOrdinary) (hn : root.HasName ∧ AllNamed root.children) :
    ∃ t, DescribesRoot root t ∧ Config.parse .xml source = .ok ⟨t.flatten⟩ := by
  obtain ⟨node, hnode, hparse⟩ := h.parse_xml_eq
  cases hnode.keepsReserved (List.forall_mem_singleton.mpr ho) with
  | element ht hi _ =>
    obtain ⟨t, hd, hread⟩ := readModule_named ht hi ho hn
    exact ⟨t, hd, by rw [hparse, hread]⟩
  | text _ h => cases h

theorem parse_xml_of_missing_name (h : DocumentText (fun _ => True) root source.toList)
    (ho : root.IsOrdinary) (hn : ¬ (root.HasName ∧ AllNamed root.children)) :
    Config.parse .xml source = .error (.document .xml nameless) := by
  obtain ⟨node, hnode, hparse⟩ := h.parse_xml_eq
  cases hnode.keepsReserved (List.forall_mem_singleton.mpr ho) with
  | element ht hi _ =>
    obtain ⟨htame, hlack⟩ := hi.tame ho.children
    rw [hparse, readModule_nameless ht hi ho htame hlack hn]
  | text _ h => cases h

end Outcomes

/-- An ordinary document is a configuration if all that is live in it has a name; otherwise the
name is reported missing. The modules are the live ones, in the order of their start tags. -/
theorem parse_xml_live {root : Element} {source : String}
    (h : DocumentText (fun _ => True) root source.toList) (ho : root.IsOrdinary) :
    ((∃ c, Config.parse .xml source = .ok c) ↔
      (∀ e, LiveModule root e → e.HasName) ∧ ∀ e, LiveProperty root e → e.HasName) ∧
    ((∃ c, Config.parse .xml source = .ok c) ∨
      Config.parse .xml source = .error (.document .xml (.misfit (.missingField "@name")))) ∧
    (∀ c, Config.parse .xml source = .ok c → List.Forall₂ LoadedAs root.liveModules c.modules) ∧
    root.liveModules.Sublist root.elements ∧ ∀ e, e ∈ root.liveModules ↔ LiveModule root e := by
  have hlist : root.liveModules.Sublist root.elements ∧
      ∀ e, e ∈ root.liveModules ↔ LiveModule root e :=
    ⟨liveModules_sublist root, fun _ => mem_liveModules_iff⟩
  rw [forall_live_hasName_iff]
  by_cases hn : root.HasName ∧ AllNamed root.children
  · obtain ⟨t, hd, hparse⟩ := parse_xml_of_names h ho hn
    rw [hparse]
    refine ⟨⟨fun _ => hn, fun _ => ⟨_, rfl⟩⟩, .inl ⟨_, rfl⟩, ?_, hlist⟩
    rintro _ ⟨⟩
    exact hd.live
  · rw [parse_xml_of_missing_name h ho hn]
    exact ⟨⟨nofun, fun h => absurd h hn⟩, .inr rfl, nofun, hlist⟩

theorem spells_self {s : List Char} (h : '&' ∉ s) : Spells s s := by
  induction s with
  | nil => exact .nil
  | cons c r ih =>
    rw [List.mem_cons, not_or] at h
    exact .literal (Ne.symm h.1) (ih h.2)

/-- A module with its properties around an inner module, and one without a name that is not
live. -/
def exemptText : String :=
  "<module name='A'><property name='k'/><x><module/></x><module name='B'/>" ++
  "<property name='k' value='1'/></module>"

def exemptRoot : Element :=
  .mk "module".toList [⟨"name".toList, "A".toList⟩]
    [.mk "property".toList [⟨"name".toList, "k".toList⟩] [],
      .mk "x".toList [] [.mk "module".toList [] []],
      .mk "module".toList [⟨"name".toList, "B".toList⟩] [],
      .mk "property".toList [⟨"name".toList, "k".toList⟩, ⟨"value".toList, "1".toList⟩] []]

theorem documentText_exemptText :
    DocumentText (fun _ => True) exemptRoot exemptText.toList := by
  have tag {name text : List Char} {as : List Attribute} (hn : IsName name)
      (ha : AttributesText as text) (hd : (as.map (·.key)).Nodup) :
      IsTag (fun _ => True) name as text := ⟨hn, ha, hd, trivial⟩
  have hnone : AttributesText [] [] := .nil blanks_nil
  have hA := hnone.cons_setting "name" '\'' "A".toList (by decide) (by decide) (by decide)
  have hB := hnone.cons_setting "name" '\'' "B".toList (by decide) (by decide) (by decide)
  have hk := hnone.cons_setting "name" '\'' "k".toList (by decide) (by decide) (by decide)
  have h1 := hnone.cons_setting "value" '\'' "1".toList (by decide) (by decide) (by decide)
  have hk1 := h1.cons_setting "name" '\'' "k".toList (by decide) (by decide) (by decide)
  have hproperty : IsName "property".toList := by decide
  have hmodule : IsName "module".toList := by decide
  have hx : IsTag (fun _ => True) "x".toList [] [] := tag (by decide) hnone (by decide)
  have hinner := Content.empty (tag hmodule hnone (by decide)) .nil
  have hlast := Content.empty (tag hproperty hk1 (by decide)) .nil
  have hinside := Content.empty (tag hproperty hk (by decide)) (.pair hx hinner blanks_nil
    (.empty (tag hmodule hB (by decide)) hlast))
  exact ⟨[], _, [], by decide +kernel, .nil,
    .pair (tag hmodule hA (by decide)) hinside blanks_nil⟩

theorem isOrdinary_exemptRoot : exemptRoot.IsOrdinary := by
  have ordinary {name : List Char} {as : List Attribute} {children : List Element}
      (hn : IsPlainName name) (hp : PlainAttributes as) (hv : ∀ a ∈ as, '&' ∉ a.value)
      (hc : ∀ e ∈ children, e.IsOrdinary) : (Element.mk name as children).IsOrdinary :=
    .mk hn ⟨hp, fun a ha => ⟨a.value, spells_self (hv a ha)⟩⟩ hc
  have hbare : (Element.mk "module".toList [] []).IsOrdinary :=
    ordinary plain_module (by decide) (by decide) (by simp)
  refine ordinary (by decide) (by decide) (by decide) ?_
  simp only [List.forall_mem_cons, List.not_mem_nil, false_implies, implies_true, and_true]
  exact ⟨ordinary (by decide) (by decide) (by decide) (by simp),
    ordinary (by decide) (by decide) (by decide) (List.forall_mem_singleton.mpr hbare),
    ordinary (by decide) (by decide) (by decide) (by simp),
    ordinary (by decide) (by decide) (by decide) (by simp)⟩

theorem parse_xml_live_exempt :
    DocumentText (fun _ => True) exemptRoot exemptText.toList ∧ exemptRoot.IsOrdinary ∧
      Config.parse .xml exemptText = .ok ⟨[⟨"A", [("k", "1")]⟩, ⟨"B", []⟩]⟩ ∧
      (∀ e, LiveModule exemptRoot e → e.HasName) ∧
      List.Forall₂ LoadedAs exemptRoot.liveModules [⟨"A", [("k", "1")]⟩, ⟨"B", []⟩] := by
  have hparse : Config.parse .xml exemptText = .ok ⟨[⟨"A", [("k", "1")]⟩, ⟨"B", []⟩]⟩ := by
    decide +kernel
  obtain ⟨hnames, -, hloaded, -⟩ := parse_xml_live documentText_exemptText isOrdinary_exemptRoot
  exact ⟨documentText_exemptText, isOrdinary_exemptRoot, hparse, (hnames.mp ⟨_, hparse⟩).1,
    hloaded _ hparse⟩

end CamelLint.Xml
