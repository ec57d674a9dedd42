import CamelLint.Proofs.Xml.Scanning
import Mathlib.Data.List.Nodup
import Mathlib.Data.List.TakeWhile

/-! Reading nodes as modules. The fields of a tag are the values of its attributes,
content without elements of meaning is passed over, and the children of a module
are gathered into its two lists, however they are mixed. From this, the root of a
written document is read as the module tree that it describes. -/

namespace CamelLint.Xml

/-! ### Fields -/

/-- The attribute that sets a field. -/
def Field.attribute : Field → String
  | .name => "name"
  | .value => "value"

def Field.key (f : Field) : List Char := f.attribute.toList

theorem Field.toList_label (f : Field) : f.label.toList = '@' :: f.key := by
  cases f <;> rfl

theorem Fields.get_set (fields : Fields) (f g : Field) (s : String) :
    (fields.set f s).get g = if g = f then some s else fields.get g := by
  cases f <;> cases g <;> rfl

theorem IsPlainName.forall_ne {name : List Char} (h : IsPlainName name) :
    ∀ c ∈ name, decide (c ≠ ':') = true := by
  intro c hc
  rw [decide_eq_true_eq]
  rintro rfl
  exact h.2 hc

theorem localName_of_plain {name : List Char} (h : IsPlainName name) : localName name = name := by
  have hdrop : name.dropWhile (· ≠ ':') = [] := List.dropWhile_eq_nil_iff.mpr h.forall_ne
  rw [localName, hdrop]

theorem attributeName?_of_plain {key : List Char} (h : IsPlainName key) :
    attributeName? key = some key := by
  have htake : key.takeWhile (· ≠ ':') = key := List.takeWhile_eq_self_iff.mpr h.forall_ne
  simp only [attributeName?, htake, if_pos]

theorem Field.key_injective {f g : Field} (h : f.key = g.key) : f = g := by
  cases f <;> cases g <;> first | rfl | exact absurd h (by decide)

namespace Fields

variable {wanted : List Field} {fields : Fields}

/-- An ordinary attribute is for the field of its key. -/
theorem find?_of_plain {key : List Char} (hp : IsPlainName key) :
    wanted.find? (fun f => (attributeName? key).any fun n => '@' :: n = f.label.toList) =
      wanted.find? (fun f => key = f.key) := by
  apply congrArg (List.find? · wanted)
  funext f
  simp [attributeName?_of_plain hp, Field.toList_label]

theorem addAttribute_unwanted {a : Attribute} (hp : IsPlainName a.key)
    (h : ∀ f ∈ wanted, a.key ≠ f.key) : fields.addAttribute wanted a = .ok fields := by
  have hnone : wanted.find? (fun f => a.key = f.key) = none := by
    rw [List.find?_eq_none]
    intro f hf
    simpa using h f hf
  rw [addAttribute, find?_of_plain hp, hnone]

theorem addAttribute_wanted {a : Attribute} (hp : IsPlainName a.key) {f : Field} (hf : f ∈ wanted)
    (h : a.key = f.key) : fields.addAttribute wanted a = fields.add f (unescape? a.value) := by
  have hsome : wanted.find? (fun f => a.key = f.key) = some f := by
    cases hg : wanted.find? (fun f => a.key = f.key) with
    | none =>
      rw [List.find?_eq_none] at hg
      exact absurd (decide_eq_true h) (hg f hf)
    | some g =>
      have hk : a.key = g.key := by simpa using List.find?_some hg
      rw [Field.key_injective (hk.symm.trans h)]
  rw [addAttribute, find?_of_plain hp, hsome]

/-- One ordinary attribute sets its field, if it is wanted, and leaves the others. -/
theorem addAttribute_spec {a : Attribute} (hp : IsPlainName a.key)
    (hv : ∀ f ∈ wanted, a.key = f.key → ∃ s, unescape? a.value = some s)
    (hn : ∀ f ∈ wanted, a.key = f.key → fields.get f = none) :
    ∃ fields', fields.addAttribute wanted a = .ok fields' ∧
      (∀ f ∈ wanted, a.key = f.key → fields'.get f = (unescape? a.value).map String.ofList) ∧
      ∀ f, (f ∈ wanted → a.key ≠ f.key) → fields'.get f = fields.get f := by
  by_cases hw : ∃ f ∈ wanted, a.key = f.key
  · obtain ⟨f, hf, hk⟩ := hw
    obtain ⟨s, hs⟩ := hv f hf hk
    refine ⟨fields.set f (String.ofList s), ?_, ?_, ?_⟩
    · rw [addAttribute_wanted hp hf hk, hs, add, hn f hf hk]
      rfl
    · intro g hg hkg
      obtain rfl := Field.key_injective (hkg.symm.trans hk)
      rw [get_set, if_pos rfl, hs, Option.map_some]
    · intro g hg
      have hne : g ≠ f := by
        rintro rfl
        exact hg hf hk
      rw [get_set, if_neg hne]
  · have hunwanted : ∀ f ∈ wanted, a.key ≠ f.key := fun f hf hk => hw ⟨f, hf, hk⟩
    exact ⟨fields, addAttribute_unwanted hp hunwanted, fun f hf hk => absurd hk (hunwanted f hf),
      fun _ _ => rfl⟩

/-- Distinct ordinary attributes set the wanted fields and leave the others. -/
theorem foldlM_addAttribute (fields : Fields) {as : List Attribute} (hp : PlainAttributes as)
    (hd : (as.map (·.key)).Nodup)
    (hv : ∀ a ∈ as, ∀ f ∈ wanted, a.key = f.key → ∃ s, unescape? a.value = some s)
    (hn : ∀ a ∈ as, ∀ f ∈ wanted, a.key = f.key → fields.get f = none) :
    ∃ fields', as.foldlM (addAttribute wanted) fields = .ok fields' ∧
      (∀ a ∈ as, ∀ f ∈ wanted, a.key = f.key →
        fields'.get f = (unescape? a.value).map String.ofList) ∧
      ∀ f, (f ∈ wanted → ∀ a ∈ as, a.key ≠ f.key) → fields'.get f = fields.get f := by
  induction as generalizing fields with
  | nil => exact ⟨fields, rfl, by simp, fun _ _ => rfl⟩
  | cons a r ih =>
    rw [List.map_cons, List.nodup_cons] at hd
    have hr : ∀ b ∈ r, b.key ≠ a.key := fun b hb he => hd.1 (he ▸ List.mem_map_of_mem hb)
    obtain ⟨first, hadd, hset₁, hkeep₁⟩ := addAttribute_spec (hp a List.mem_cons_self)
      (hv a List.mem_cons_self) (hn a List.mem_cons_self)
    have hunset : ∀ b ∈ r, ∀ f ∈ wanted, b.key = f.key → first.get f = none := by
      intro b hb f hf hk
      rw [hkeep₁ f fun _ he => hr b hb (hk.trans he.symm)]
      exact hn b (List.mem_cons_of_mem a hb) f hf hk
    have hplain : PlainAttributes r := fun b hb => hp b (List.mem_cons_of_mem a hb)
    obtain ⟨fields', hfold, hset, hkeep⟩ := ih first hplain hd.2
      (fun b hb => hv b (List.mem_cons_of_mem a hb)) hunset
    refine ⟨fields', ?_, ?_, ?_⟩
    · rw [List.foldlM_cons, hadd]
      exact hfold
    · intro b hb f hf hk
      rcases List.mem_cons.mp hb with rfl | hb
      · rw [hkeep f fun _ c hc he => hr c hc (he.trans hk.symm)]
        exact hset₁ f hf hk
      · exact hset b hb f hf hk
    · intro f hf
      rw [hkeep f fun h c hc => hf h c (List.mem_cons_of_mem a hc)]
      exact hkeep₁ f fun h => hf h a List.mem_cons_self

end Fields

section Attributes

variable {allowed : List Attribute → Prop} {name cs : List Char} {as : List Attribute}

/-- Distinct keys make an attribute say one thing only. -/
theorem IsTag.value_of_says (ht : IsTag allowed name as cs) {key value : String}
    (h : Says as key value) {a : Attribute} (ha : a ∈ as) (hk : a.key = key.toList) :
    unescape? a.value = some value.toList := by
  obtain ⟨raw, hm, hs⟩ := h
  obtain rfl := List.inj_on_of_nodup_map ht.distinct ha hm hk
  exact hs.unescape?

/-- The fields of a tag are what its attributes say, and unset where an attribute is missing. -/
theorem IsTag.ofAttributes (ht : IsTag allowed name as cs) (hp : PlainAttributes as)
    (wanted : List Field)
    (hw : ∀ f ∈ wanted, (∃ v, Says as f.attribute v) ∨ ∀ a ∈ as, a.key ≠ f.key) :
    ∃ fields, Fields.ofAttributes wanted cs = .ok fields ∧
      (∀ f ∈ wanted, ∀ v, Says as f.attribute v → fields.get f = some v) ∧
      ∀ f, (f ∈ wanted → ∀ a ∈ as, a.key ≠ f.key) → fields.get f = none := by
  have hv : ∀ a ∈ as, ∀ f ∈ wanted, a.key = f.key → ∃ s, unescape? a.value = some s := by
    intro a ha f hf hk
    rcases hw f hf with ⟨v, hs⟩ | hno
    · exact ⟨v.toList, ht.value_of_says hs ha hk⟩
    · exact absurd hk (hno a ha)
  have hempty : ∀ f, Fields.get {} f = none := by
    intro f
    cases f <;> rfl
  obtain ⟨fields, hfold, hset, hkeep⟩ :=
    Fields.foldlM_addAttribute {} hp ht.distinct hv fun _ _ f _ _ => hempty f
  refine ⟨fields, ?_, ?_, fun f hf => (hkeep f hf).trans (hempty f)⟩
  · simp only [Fields.ofAttributes, ht.attributes.bindsSoundly hp.keepsReserved,
      ht.attributesOf_eq, hfold]
    rfl
  · rintro f hf v ⟨raw, hm, hs⟩
    rw [hset _ hm f hf rfl, hs.unescape?, Option.map_some, String.ofList_toList]

theorem IsTag.ofAttributes_module (ht : IsTag allowed name as cs) {n : String}
    (h : DescribesModule as n) :
    ∃ fields, Fields.ofAttributes [.name] cs = .ok fields ∧ fields.requireName = .ok n := by
  have hw : ∀ f ∈ [Field.name], (∃ v, Says as f.attribute v) ∨ ∀ a ∈ as, a.key ≠ f.key := by
    intro f hf
    obtain rfl := List.mem_singleton.mp hf
    exact .inl ⟨n, h.saysName⟩
  obtain ⟨fields, hok, hsay, -⟩ := ht.ofAttributes h.plain [.name] hw
  have hget : fields.name = some n := hsay .name List.mem_cons_self n h.saysName
  exact ⟨fields, hok, by rw [Fields.requireName, hget]⟩

theorem IsTag.ofAttributes_property (ht : IsTag allowed name as cs) {n v : String}
    (h : DescribesProperty as n v) :
    ∃ fields, Fields.ofAttributes propertyFields cs = .ok fields ∧
      fields.requireName = .ok n ∧ fields.value.getD "" = v := by
  have hw : ∀ f ∈ propertyFields, (∃ v, Says as f.attribute v) ∨ ∀ a ∈ as, a.key ≠ f.key := by
    intro f _
    cases f with
    | name => exact .inl ⟨n, h.saysName⟩
    | value => exact h.saysValue.imp (fun hs => ⟨v, hs⟩) And.right
  obtain ⟨fields, hok, hsay, hunset⟩ := ht.ofAttributes h.plain propertyFields hw
  have hget : fields.name = some n := hsay .name (by decide) n h.saysName
  refine ⟨fields, hok, by rw [Fields.requireName, hget], ?_⟩
  rcases h.saysValue with hs | ⟨rfl, hno⟩
  · have hvalue : fields.value = some v := hsay .value (by decide) v hs
    rw [hvalue, Option.getD_some]
  · have hvalue : fields.value = none := hunset .value fun _ => hno
    rw [hvalue, Option.getD_none]

end Attributes

/-! ### Content that is passed over -/

theorem Node.isSound_of_isText {n : Node} (h : n.IsText) : n.isSound = true := by
  cases n with
  | char c => rw [isSound]
  | cdata s => rw [isSound]
  | reference name =>
    obtain ⟨c, hc⟩ := h
    rw [isSound, hc.resolve?, Option.isSome_some]
  | doctype => exact h.elim
  | element name cs content closed => exact h.elim

theorem IsTag.isSound {name cs : List Char} {as : List Attribute} {content : List Node}
    (ht : IsTag KeepsReserved name as cs) (hc : Node.areSound content = true) :
    (Node.element name cs content true).isSound = true := by
  rw [Node.isSound, ht.attributes.bindsSoundly ht.isAllowed, hc]
  rfl

/-- Written content is sound all the way down. -/
theorem NodesOf.areSound {es : List Element} {ns : List Node} (h : NodesOf KeepsReserved es ns) :
    Node.areSound ns = true := by
  induction h with
  | nil => rw [Node.areSound]
  | text hn h ih => rw [Node.areSound, Node.isSound_of_isText hn, ih, Bool.and_self]
  | element ht hi h ihi ih => rw [Node.areSound, ht.isSound ihi, ih, Bool.and_self]

theorem Node.hasSoundTag_of_isSound {n : Node} (h : n.isSound = true) : n.hasSoundTag = true := by
  cases n with
  | element name cs content closed =>
    rw [isSound, Bool.and_eq_true, Bool.and_eq_true] at h
    exact h.1.1
  | _ => rfl

theorem Node.isPassable_of_isSound {n : Node} (h : n.isSound = true) : n.isPassable = true := by
  cases n with
  | element name cs content closed =>
    rw [isSound, Bool.and_eq_true] at h
    rw [isPassable, h.1, Bool.true_and]
    cases content with
    | nil => rfl
    | cons m r =>
      have hm := h.2
      rw [areSound, Bool.and_eq_true] at hm
      exact hasSoundTag_of_isSound hm.1
  | _ => rfl

namespace Fields

variable {wanted : List Field} {fields : Fields}

theorem addNode_of_isText {n : Node} (h : n.IsText) : fields.addNode wanted n = .ok fields := by
  cases n with
  | char c => rfl
  | cdata s => rfl
  | reference name =>
    obtain ⟨c, hc⟩ := h
    rw [addNode, hc.resolve?, Option.isSome_some, if_pos rfl]
  | doctype => exact h.elim
  | element name cs content closed => exact h.elim

/-- No ordinary name has the mark of a field. -/
theorem ofElement?_of_plain {name : List Char} (h : IsPlainName name) :
    ofElement? wanted name = none := by
  rw [ofElement?, localName_of_plain h, List.find?_eq_none]
  intro f _ heq
  have hname : name = '@' :: f.key := by simpa [Field.toList_label] using heq
  have hmark : '@' ∈ name := hname ▸ List.mem_cons_self
  exact absurd (h.1.2 '@' hmark) (by decide)

theorem addNode_of_plain {name cs : List Char} {content : List Node} {closed : Bool}
    (hn : IsPlainName name) (hs : (Node.element name cs content closed).isSound = true) :
    fields.addNode wanted (.element name cs content closed) = .ok fields := by
  rw [addNode, ofElement?_of_plain hn]
  exact if_pos (Node.isPassable_of_isSound hs)

end Fields

theorem NodesOf.foldlM_addNode {es : List Element} {ns : List Node}
    (h : NodesOf KeepsReserved es ns) (hp : ∀ e ∈ es, IsPlainName e.name) (wanted : List Field)
    (fields : Fields) : ns.foldlM (Fields.addNode wanted) fields = .ok fields := by
  induction h with
  | nil => rfl
  | text hn h ih =>
    rw [List.foldlM_cons, Fields.addNode_of_isText hn]
    exact ih hp
  | @element name cs as inner es content ns ht hi h ihi ih =>
    have hname : IsPlainName name := hp _ List.mem_cons_self
    rw [List.foldlM_cons, Fields.addNode_of_plain hname (ht.isSound hi.areSound)]
    exact ih fun e he => hp e (List.mem_cons_of_mem _ he)

theorem readProperty_eq {name cs : List Char} {as : List Attribute} {inner : List Element}
    {content : List Node} {n v : String} (ht : IsTag KeepsReserved name as cs)
    (hc : NodesOf KeepsReserved inner content) (ha : DescribesProperty as n v)
    (hi : ∀ e ∈ inner, IsPlainName e.name) :
    readProperty (.element name cs content true) = .ok (n, v) := by
  obtain ⟨fields, hfields, hname, hvalue⟩ := ht.ofAttributes_property ha
  simp only [readProperty, hfields, bind, Except.bind, hc.foldlM_addNode hi, if_true, hname, hvalue]
  rfl

end CamelLint.Xml
