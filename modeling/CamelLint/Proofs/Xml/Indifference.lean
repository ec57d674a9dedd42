import CamelLint.Proofs.Xml.RoundTrip

/-! What a document may vary in. Documents that present one module tree are read alike,
whatever else is in them and however the tree is written, as long as their tags keep
to the reserved names of namespaces; a tag that breaks this is a fault even where its
element counts for nothing. -/

namespace CamelLint.Xml

/-- Only the module tree of a document counts. -/
theorem parseConfig_eq_of_presents {t : ModuleTree} {source other : String}
    (h : Presents KeepsReserved source t) (ho : Presents KeepsReserved other t) :
    ∃ c, c.modules = t.flatten ∧ parseConfig source = .ok c ∧ parseConfig other = .ok c :=
  ⟨⟨t.flatten⟩, rfl, h.parseConfig_eq, ho.parseConfig_eq⟩

def smallTree : ModuleTree := .node "a" [("k", "1")] [.node "b" [] []]

/-- The tree among what does not count. -/
def richText : String :=
  "<?xml version=\"1.0\"?>\n<!-- > --><config id='7' name='&#97;'>\n" ++
  "<module name=\"b\"><!----></module><x><module name=\"z\"/>&lt;<![CDATA[<]]></x>" ++
  "<property value='1' name='k'></property></config>\n"

theorem presents_richText : Presents KeepsReserved richText smallTree := by
  -- the tags
  have hroot : IsTag KeepsReserved "config".toList _ _ :=
    PlainAttributes.isTag (by decide) (by decide)
      (.cons_setting "id" '\'' "7".toList (by decide) (by decide) (by decide)
        (.cons_setting "name" '\'' "&#97;".toList (by decide) (by decide) (by decide)
          (.nil blanks_nil))) (by decide)
  have hb : IsTag KeepsReserved "module".toList _ _ :=
    PlainAttributes.isTag (by decide) (by decide)
      (.cons_setting "name" '"' "b".toList (by decide) (by decide) (by decide) (.nil blanks_nil))
      (by decide)
  have hz : IsTag KeepsReserved "module".toList _ _ :=
    PlainAttributes.isTag (by decide) (by decide)
      (.cons_setting "name" '"' "z".toList (by decide) (by decide) (by decide) (.nil blanks_nil))
      (by decide)
  have hx : IsTag KeepsReserved "x".toList [] [] :=
    PlainAttributes.isTag (by decide) (by decide) (.nil blanks_nil) (by decide)
  have hk : IsTag KeepsReserved "property".toList _ _ :=
    PlainAttributes.isTag (by decide) (by decide)
      (.cons_setting "value" '\'' "1".toList (by decide) (by decide) (by decide)
        (.cons_setting "name" '\'' "k".toList (by decide) (by decide) (by decide)
          (.nil blanks_nil))) (by decide)
  -- the text around and between them
  have hlt : Refers "lt".toList '<' := .entity (by decide)
  have hdeclaration : Aside ("<?".toList ++ "xml version=\"1.0\"".toList ++ "?>".toList) :=
    .instruction (by decide) (by decide) (by decide +kernel)
  have hcomment : Aside ("<!--".toList ++ " > ".toList ++ "-->".toList) :=
    .comment (by decide +kernel)
  have hempty : Aside ("<!--".toList ++ [] ++ "-->".toList) := .comment (by decide +kernel)
  have hsection : ¬ "]]>".toList <:+: "<".toList := by decide +kernel
  have hbefore := Prolog.aside hdeclaration
    (.blank (by decide : isSpace '\n' = true) (.aside hcomment .nil))
  have hnoise := Content.empty hz (.reference hlt (.cdata hsection .nil))
  have hinside := Content.char (by decide : '\n' ≠ '<') (by decide)
    (.pair hb (.aside hempty .nil) blanks_nil
      (.pair hx hnoise blanks_nil (.pair hk .nil blanks_nil .nil)))
  -- what they say
  have h97 : Numeral 10 "97".toList 97 :=
    .snoc (.digit (by decide : IsDigitOf 10 '9' 9)) (by decide : IsDigitOf 10 '7' 7)
  have ha : Spells "a".toList "&#97;".toList :=
    .reference (.decimal (c := 'a') h97 (by decide)) .nil
  have hletter : Spells "b".toList "b".toList := .literal (by decide) .nil
  have hkey : Spells "k".toList "k".toList := .literal (by decide) .nil
  have hone : Spells "1".toList "1".toList := .literal (by decide) .nil
  have hproperty : DescribesProperty [⟨"value".toList, "1".toList⟩, ⟨"name".toList, "k".toList⟩]
      "k" "1" :=
    ⟨by decide, ⟨_, by decide, hkey⟩, .inl ⟨_, by decide, hone⟩⟩
  refine ⟨_, ⟨_, _, "\n".toList, ?_, hbefore, .pair hroot hinside blanks_nil⟩, ?_⟩
  · decide +kernel
  · exact .mk ⟨by decide, _, by decide, ha⟩ (.module ⟨by decide, _, by decide, hletter⟩ .nil
      (.other (by decide) (by decide) (by decide) (.property hproperty (by simp) .nil)))

theorem parseConfig_richText_eq_write :
    Presents KeepsReserved richText smallTree ∧
      Presents KeepsReserved (String.ofList smallTree.write) smallTree ∧
      ∃ c, c.modules = smallTree.flatten ∧ parseConfig richText = .ok c ∧
        parseConfig (String.ofList smallTree.write) = .ok c :=
  have hwrite := smallTree.presents_write
  ⟨presents_richText, hwrite, parseConfig_eq_of_presents presents_richText hwrite⟩

/-- A text whose inmost tag binds a reserved prefix. -/
def rebindingText : String := "<module name=\"A\"><x><y xmlns:xml=\"u\"/></x></module>"

/-- Without the condition on bindings, documents of one tree differ, although the tag that
breaks it is inside an element that does not count. -/
theorem parseConfig_rebindingText :
    Presents (fun _ => True) "<module name=\"A\"/>" (.node "A" [] []) ∧
      Presents (fun _ => True) rebindingText (.node "A" [] []) ∧
      parseConfig "<module name=\"A\"/>" = .ok ⟨[⟨"A", []⟩]⟩ ∧
      parseConfig rebindingText = .error .malformed := by
  have hroot : IsTag (fun _ => True) "module".toList _ _ :=
    ⟨by decide, .cons_setting "name" '"' "A".toList (by decide) (by decide) (by decide)
      (.nil blanks_nil), by decide, trivial⟩
  have hx : IsTag (fun _ => True) "x".toList [] [] :=
    ⟨by decide, .nil blanks_nil, by decide, trivial⟩
  have hy : IsTag (fun _ => True) "y".toList _ _ :=
    ⟨by decide, .cons_setting "xmlns:xml" '"' "u".toList (by decide) (by decide) (by decide)
      (.nil blanks_nil), by decide, trivial⟩
  have ha : Spells "A".toList "A".toList := .literal (by decide) .nil
  have hmodule : DescribesModule [⟨"name".toList, "A".toList⟩] "A" := ⟨by decide, _, by decide, ha⟩
  have hinside := Content.pair hx (.empty hy .nil) blanks_nil .nil
  refine ⟨⟨_, ⟨[], _, [], ?_, .nil, .empty hroot⟩, .mk hmodule .nil⟩,
    ⟨_, ⟨[], _, [], ?_, .nil, .pair hroot hinside blanks_nil⟩,
      .mk hmodule (.other (by decide) (by decide) (by decide) .nil)⟩, ?_, ?_⟩
  · decide +kernel
  · decide +kernel
  · decide +kernel
  · decide +kernel

end CamelLint.Xml
