import CamelLint.Proofs.Entries
import CamelLint.Proofs.Xml.Children

/-! Module trees written and read back. A tree is written as nested elements, with its
properties among them; in values, the characters of markup are referred to, and all
others may be. However that is done, the modules that are read are the nodes of the
tree, parents first, each with the last values of its properties. -/

namespace CamelLint

/-- The module has the name, and the properties with their last values. -/
structure Module.Records (m : Module) (name : String) (ps : List (String × String)) : Prop where
  name_eq : m.name = name
  holdsLast : m.properties.HoldsLast ps

namespace Xml

/-! ### Nodes of a tree -/

namespace ModuleTree

mutual

/-- The names and properties of the nodes, a parent before its children. -/
def nodes : ModuleTree → List (String × List (String × String))
  | node name properties children => (name, properties) :: nodesAll children

def nodesAll : List ModuleTree → List (String × List (String × String))
  | [] => []
  | t :: r => nodes t ++ nodesAll r

end

def moduleOf (n : String × List (String × String)) : Module := ⟨n.1, Entries.ofList n.2⟩

mutual

theorem flattenInto_eq (out : List Module) :
    ∀ t, flattenInto out t = out ++ (nodes t).map moduleOf
  | node name properties children => by
    rw [flattenInto, flattenAllInto_eq _ children, nodes, List.map_cons, List.append_assoc]
    rfl

theorem flattenAllInto_eq (out : List Module) :
    ∀ ts, flattenAllInto out ts = out ++ (nodesAll ts).map moduleOf
  | [] => by rw [flattenAllInto, nodesAll, List.map_nil, List.append_nil]
  | t :: r => by
    rw [flattenAllInto, flattenAllInto_eq _ r, flattenInto_eq out t, nodesAll, List.map_append,
      List.append_assoc]

end

theorem flatten_eq (t : ModuleTree) : t.flatten = t.nodes.map moduleOf := by
  rw [flatten, flattenInto_eq, List.nil_append]

theorem records_moduleOf (n : String × List (String × String)) : (moduleOf n).Records n.1 n.2 :=
  ⟨rfl, Entries.holdsLast_ofList n.2⟩

end ModuleTree

/-! ### Writing -/

/-- The ways of writing a text between quotes: the characters of markup by references, and
each other one by itself or by a reference. -/
inductive Escapes : List Char → List Char → Prop where
  | nil : Escapes [] []
  | literal {c : Char} {s raw : List Char} (h : c ∉ "&<>\"'".toList) (hs : Escapes s raw) :
      Escapes (c :: s) (c :: raw)
  | reference {name : List Char} {c : Char} {s raw : List Char} (h : Refers name c)
      (hs : Escapes s raw) : Escapes (c :: s) ('&' :: (name ++ ';' :: raw))

/-- An attribute with a text between quotes of either kind. -/
inductive Sets (key value : String) : List Char → Prop where
  | mk {quote : Char} {raw : List Char} (hq : isQuote quote = true)
      (h : Escapes value.toList raw) : Sets key value (setting key quote raw)

/-- The texts that write properties and modules, in any mixture. An empty value may be left
out, and so may the end tag of a module that has nothing in it. -/
inductive Writes : List (String × String) → List ModuleTree → List Char → Prop where
  | nil : Writes [] [] []
  | property {name value : String} {n v cs : List Char} {ps : List (String × String)}
      {ts : List ModuleTree} (hn : Sets "name" name n) (hv : Sets "value" value v)
      (h : Writes ps ts cs) :
      Writes ((name, value) :: ps) ts (emptyTag "property".toList (n ++ v) ++ cs)
  | bare {name : String} {n cs : List Char} {ps : List (String × String)} {ts : List ModuleTree}
      (hn : Sets "name" name n) (h : Writes ps ts cs) :
      Writes ((name, "") :: ps) ts (emptyTag "property".toList n ++ cs)
  | leaf {name : String} {n cs : List Char} {ps : List (String × String)} {ts : List ModuleTree}
      (hn : Sets "name" name n) (h : Writes ps ts cs) :
      Writes ps (.node name [] [] :: ts) (emptyTag "module".toList n ++ cs)
  | module {name : String} {n inside cs : List Char} {qs ps : List (String × String)}
      {us ts : List ModuleTree} (hn : Sets "name" name n) (hi : Writes qs us inside)
      (h : Writes ps ts cs) :
      Writes ps (.node name qs us :: ts)
        (openTag "module".toList n ++ inside ++ closeTag "module".toList [] ++ cs)

/-! ### Written text as content -/

theorem Escapes.spells {s raw : List Char} (h : Escapes s raw) : Spells s raw := by
  induction h with
  | nil => exact .nil
  | literal h hs ih =>
    refine .literal ?_ ih
    rintro rfl
    exact h (by decide)
  | reference h hs ih => exact .reference h ih

/-- Neither quote is left. -/
theorem Escapes.not_mem {s raw : List Char} (h : Escapes s raw) {d : Char}
    (hd : isQuote d = true) : d ∉ raw := by
  have hquote : d = '"' ∨ d = '\'' := by simpa [isQuote] using hd
  have hliteral : d ∈ "&<>\"'".toList := by rcases hquote with rfl | rfl <;> decide
  have hname : d ∈ ";&<>\"'".toList := by rcases hquote with rfl | rfl <;> decide
  have hmarks : d ≠ '&' ∧ d ≠ ';' := by rcases hquote with rfl | rfl <;> decide
  induction h with
  | nil => exact List.not_mem_nil
  | @literal c s raw h hs ih =>
    rw [List.mem_cons, not_or]
    refine ⟨?_, ih⟩
    rintro rfl
    exact h hliteral
  | @reference name c s raw h hs ih =>
    have hm : d ∉ name := fun hm => h.not_mem_marks d hm hname
    simp only [List.mem_cons, List.mem_append, not_or]
    exact ⟨hmarks.1, hm, hmarks.2, ih⟩

/-- An attribute in front of others, which says its value. -/
theorem Sets.cons_attribute {key value : String} {cs text : List Char} {as : List Attribute}
    (h : Sets key value cs) (hk : IsName key.toList) (ha : AttributesText as text) :
    ∃ raw, Spells value.toList raw ∧ AttributesText (⟨key.toList, raw⟩ :: as) (cs ++ text) := by
  cases h with
  | @mk quote raw hq h =>
    have hraw : quote ∉ raw := h.not_mem hq
    exact ⟨raw, h.spells, .cons_setting key quote raw hk hq hraw ha⟩

theorem plain_name : IsPlainName "name".toList := by decide

theorem plain_value : IsPlainName "value".toList := by decide

theorem plain_module : IsPlainName "module".toList := by decide

theorem plain_property : IsPlainName "property".toList := by decide

/-- A tag that sets a name describes a module of that name. -/
theorem Sets.isTag_name {name : String} {tag n : List Char} (h : Sets "name" name n)
    (ht : IsName tag) :
    ∃ as, IsTag KeepsReserved tag as n ∧ DescribesModule as name ∧
      ∀ a ∈ as, a.key ≠ "value".toList := by
  obtain ⟨raw, hraw, hattr⟩ := h.cons_attribute plain_name.1 (.nil blanks_nil)
  rw [List.append_nil] at hattr
  have hplain : PlainAttributes [⟨"name".toList, raw⟩] := List.forall_mem_singleton.mpr plain_name
  have hne : "name".toList ≠ "value".toList := by decide
  exact ⟨_, hplain.isTag ht hattr (List.nodup_singleton _),
    ⟨hplain, raw, List.mem_cons_self, hraw⟩, List.forall_mem_singleton.mpr hne⟩

theorem Sets.isTag_value {name value : String} {tag n v : List Char} (hn : Sets "name" name n)
    (hv : Sets "value" value v) (ht : IsName tag) :
    ∃ as, IsTag KeepsReserved tag as (n ++ v) ∧ DescribesProperty as name value := by
  obtain ⟨rawv, hrawv, hattrv⟩ := hv.cons_attribute plain_value.1 (.nil blanks_nil)
  obtain ⟨rawn, hrawn, hattr⟩ := hn.cons_attribute plain_name.1 hattrv
  rw [List.append_nil] at hattr
  have hplain : PlainAttributes [⟨"name".toList, rawn⟩, ⟨"value".toList, rawv⟩] :=
    List.forall_mem_cons.mpr ⟨plain_name, List.forall_mem_singleton.mpr plain_value⟩
  have hdistinct : ["name".toList, "value".toList].Nodup := by decide
  exact ⟨_, hplain.isTag ht hattr hdistinct, ⟨hplain, ⟨rawn, List.mem_cons_self, hrawn⟩,
    .inl ⟨rawv, List.mem_cons_of_mem _ List.mem_cons_self, hrawv⟩⟩⟩

/-- What is written is content that describes the properties and modules. -/
theorem Writes.content {ps : List (String × String)} {ts : List ModuleTree} {cs : List Char}
    (h : Writes ps ts cs) : ∃ es, Content KeepsReserved es cs ∧ Describes es ps ts := by
  induction h with
  | nil => exact ⟨[], .nil, .nil⟩
  | property hn hv h ih =>
    obtain ⟨es, hcontent, hes⟩ := ih
    obtain ⟨as, htag, has⟩ := hn.isTag_value hv plain_property.1
    exact ⟨_, .empty htag hcontent, .property has (by simp) hes⟩
  | bare hn h ih =>
    obtain ⟨es, hcontent, hes⟩ := ih
    obtain ⟨as, htag, has, hbare⟩ := hn.isTag_name plain_property.1
    have hprop : DescribesProperty as _ "" := ⟨has.plain, has.saysName, .inr ⟨rfl, hbare⟩⟩
    exact ⟨_, .empty htag hcontent, .property hprop (by simp) hes⟩
  | leaf hn h ih =>
    obtain ⟨es, hcontent, hes⟩ := ih
    obtain ⟨as, htag, has, -⟩ := hn.isTag_name plain_module.1
    exact ⟨_, .empty htag hcontent, .module has .nil hes⟩
  | module hn hi h ihi ih =>
    obtain ⟨es, hcontent, hes⟩ := ih
    obtain ⟨inner, hinside, hinner⟩ := ihi
    obtain ⟨as, htag, has, -⟩ := hn.isTag_name plain_module.1
    exact ⟨_, .pair htag hinside blanks_nil hcontent, .module has hinner hes⟩

theorem Writes.renders {t : ModuleTree} {source : String} (h : Writes [] [t] source.toList) :
    Renders KeepsReserved source t := by
  unfold Renders
  generalize source.toList = doc at h ⊢
  cases h with
  | leaf hn h =>
    cases h
    obtain ⟨as, htag, has, -⟩ := hn.isTag_name plain_module.1
    exact ⟨_, [], _, List.append_nil _, .nil, .empty htag, .mk has .nil⟩
  | module hn hi h =>
    cases h
    obtain ⟨inner, hinside, hinner⟩ := hi.content
    obtain ⟨as, htag, has, -⟩ := hn.isTag_name plain_module.1
    exact ⟨_, [], _, List.append_nil _, .nil, .pair htag hinside blanks_nil, .mk has hinner⟩

theorem Writes.presents {t : ModuleTree} {source : String} (h : Writes [] [t] source.toList) :
    Presents KeepsReserved source t :=
  h.renders.presents

/-! ### One way of writing -/

/-- Refers to the characters of markup by name, and to no others. -/
def escapeChar (c : Char) : List Char :=
  match entities.find? (·.2 = c) with
  | some e => '&' :: (e.1.toList ++ [';'])
  | none => [c]

def attributeText (key value : String) : List Char :=
  setting key '"' (value.toList.flatMap escapeChar)

namespace ModuleTree

def writeProperty (p : String × String) : List Char :=
  emptyTag "property".toList (attributeText "name" p.1 ++ attributeText "value" p.2)

mutual

/-- Writes a tree: of each module, first the properties. -/
def write : ModuleTree → List Char
  | node name properties children =>
    openTag "module".toList (attributeText "name" name) ++
      (properties.flatMap writeProperty ++ writeAll children) ++ closeTag "module".toList []

def writeAll : List ModuleTree → List Char
  | [] => []
  | t :: r => write t ++ writeAll r

end

end ModuleTree

theorem escapes_flatMap (s : List Char) : Escapes s (s.flatMap escapeChar) := by
  induction s with
  | nil => exact .nil
  | cons c s ih =>
    rw [List.flatMap_cons, escapeChar]
    cases h : entities.find? (·.2 = c) with
    | some e =>
      have he : e.2 = c := by simpa using List.find?_some h
      have href := Escapes.reference (.entity (List.mem_of_find?_eq_some h)) ih
      rw [he] at href
      simpa using href
    | none =>
      have hmarks : "&<>\"'".toList.all (fun d => (entities.find? (·.2 = d)).isSome) = true := by
        decide
      refine .literal ?_ ih
      intro hc
      have hsome := List.all_eq_true.mp hmarks c hc
      rw [h] at hsome
      exact absurd hsome (by decide)

theorem sets_attributeText (key value : String) : Sets key value (attributeText key value) :=
  .mk (by decide) (escapes_flatMap value.toList)

namespace ModuleTree

theorem writes_properties (ps : List (String × String)) {ts : List ModuleTree} {cs : List Char}
    (h : Writes [] ts cs) : Writes ps ts (ps.flatMap writeProperty ++ cs) := by
  induction ps with
  | nil => exact h
  | cons p r ih =>
    rw [List.flatMap_cons, List.append_assoc]
    exact .property (sets_attributeText _ p.1) (sets_attributeText _ p.2) ih

mutual

theorem writes_cons : ∀ (t : ModuleTree) {ts : List ModuleTree} {cs : List Char},
    Writes [] ts cs → Writes [] (t :: ts) (write t ++ cs)
  | node name properties children, ts, cs, h => by
    rw [write]
    have hchildren := writes_writeAll children
    exact .module (sets_attributeText _ name) (writes_properties properties hchildren) h

theorem writes_writeAll : ∀ ts : List ModuleTree, Writes [] ts (writeAll ts)
  | [] => by
    rw [writeAll]
    exact .nil
  | t :: r => by
    rw [writeAll]
    exact writes_cons t (writes_writeAll r)

end

theorem writes_write (t : ModuleTree) : Writes [] [t] (write t) := by
  have h := writes_cons t .nil
  rwa [List.append_nil] at h

example : String.ofList (node "a<b" [("k", "'")] []).write =
    "<module name=\"a&lt;b\"><property name=\"k\" value=\"&apos;\"/></module>" := by
  decide +kernel

theorem presents_write (t : ModuleTree) : Presents KeepsReserved (String.ofList t.write) t := by
  apply Writes.presents
  rw [String.toList_ofList]
  exact t.writes_write

end ModuleTree

/-! ### Reading back -/

/-- Every tree can be written, and from each of its texts exactly its nodes are read. -/
theorem parseConfig_of_writes (t : ModuleTree) :
    Writes [] [t] t.write ∧ ∀ source : String, Writes [] [t] source.toList →
      ∃ c, parseConfig source = .ok c ∧
        List.Forall₂ (fun n m => Module.Records m n.1 n.2) t.nodes c.modules := by
  refine ⟨t.writes_write, ?_⟩
  intro source h
  refine ⟨⟨t.flatten⟩, h.presents.parseConfig_eq, ?_⟩
  rw [ModuleTree.flatten_eq, List.forall₂_map_right_iff, List.forall₂_same]
  exact fun n _ => ModuleTree.records_moduleOf n

/-- A tree with a property written twice. -/
def nestedTree : ModuleTree :=
  .node "a<b" [("k", "1"), ("k", "")] [.node "é" [("k", "'")] [.node "" [] []]]

/-- A text of it, with the module between the properties. -/
def nestedText : String :=
  "<module name='a&lt;b'><property name=\"k\" value='&#49;'/>" ++
  "<module name=\"&#xE9;\"><property name='k' value='&apos;'/><module name=''/></module>" ++
  "<property name=\"&#x6b;\"/></module>"

theorem writes_nestedText : Writes [] [nestedTree] nestedText.toList := by
  have hlt : Refers "lt".toList '<' := .entity (by decide)
  have hapos : Refers "apos".toList '\'' := .entity (by decide)
  have h49 : Numeral 10 "49".toList 49 :=
    .snoc (.digit (by decide : IsDigitOf 10 '4' 4)) (by decide : IsDigitOf 10 '9' 9)
  have he9 : Numeral 16 "E9".toList 233 :=
    .snoc (.digit (by decide : IsDigitOf 16 'E' 14)) (by decide : IsDigitOf 16 '9' 9)
  have h6b : Numeral 16 "6b".toList 107 :=
    .snoc (.digit (by decide : IsDigitOf 16 '6' 6)) (by decide : IsDigitOf 16 'b' 11)
  have hroot : Escapes "a<b".toList "a&lt;b".toList :=
    .literal (by decide) (.reference hlt (.literal (by decide) .nil))
  have hkey : Escapes "k".toList "k".toList := .literal (by decide) .nil
  have hone : Escapes "1".toList "&#49;".toList :=
    .reference (.decimal (c := '1') h49 (by decide)) .nil
  have hinner : Escapes "é".toList "&#xE9;".toList :=
    .reference (.hexadecimal (c := 'é') he9 (by decide)) .nil
  have hquote : Escapes "'".toList "&apos;".toList := .reference hapos .nil
  have hcode : Escapes "k".toList "&#x6b;".toList :=
    .reference (.hexadecimal (c := 'k') h6b (by decide)) .nil
  have hnone : Escapes "".toList [] := .nil
  have hdouble : isQuote '"' = true := by decide
  have hsingle : isQuote '\'' = true := by decide
  have hw := Writes.module (.mk hsingle hroot) (.property (.mk hdouble hkey) (.mk hsingle hone)
    (.module (.mk hdouble hinner) (.property (.mk hsingle hkey) (.mk hsingle hquote)
      (.leaf (.mk hsingle hnone) .nil)) (.bare (.mk hdouble hcode) .nil))) .nil
  exact cast (congrArg (Writes [] [nestedTree]) (by decide +kernel)) hw

theorem parseConfig_of_writes_nested : Writes [] [nestedTree] nestedText.toList ∧
    ∃ c, parseConfig nestedText = .ok c ∧
      List.Forall₂ (fun n m => Module.Records m n.1 n.2) nestedTree.nodes c.modules :=
  ⟨writes_nestedText, (parseConfig_of_writes nestedTree).2 nestedText writes_nestedText⟩

end Xml

end CamelLint
