import CamelLint.Config.Load
import CamelLint.Proofs.Xml.RoundTrip

/-! Texts and their prefixes. A text loads only if the scanner has passed the end of its
root, since an element that is left open is a fault wherever it stands. What follows
the root then makes no difference; and a document that ends with its root no longer
loads when anything is cut off its end. -/

namespace CamelLint.Xml

/-! ### Elements that are left open -/

/-- Content is read to its end only in a module that is closed. -/
theorem Draft.readContent_unclosed (unread : Nat) (p : Draft) (cs : List Child) :
    ∃ e, readContent false unread p cs = .error e := by
  cases unread with
  | zero =>
    rw [readContent]
    split
    · exact ⟨_, rfl⟩
    · split <;> exact ⟨_, rfl⟩
  | succ unread =>
    rw [readContent]
    split
    · exact ⟨_, rfl⟩
    · split
      · exact ⟨_, rfl⟩
      · split
        · exact ⟨_, rfl⟩
        · split <;> exact ⟨_, rfl⟩

theorem readModule_unclosed (name attributes : List Char) (content : List Node) :
    ∃ e, readModule (.element name attributes content false) = .error e := by
  rw [readModule, assemble]
  cases Fields.ofAttributes [.name] attributes with
  | error e => exact ⟨e, rfl⟩
  | ok fields =>
    obtain ⟨e, he⟩ := Draft.readContent_unclosed 2 { fields } (childrenOf content)
    refine ⟨e, ?_⟩
    simp only [bind, Except.bind, he]

/-- Of elements that are open in one another, also the outermost is not closed. -/
theorem Open.cut_cons (f : Frame) (fs : List Frame) (inner : Option Node) :
    ∃ name attributes content,
      Open.cut (f :: fs) inner = some (.element name attributes content false) := by
  induction fs generalizing f inner with
  | nil => exact ⟨_, _, _, rfl⟩
  | cons g fs ih => exact ih g _

namespace Scan

open Mode

/-- The scanner has passed the end of the root. -/
def IsComplete (s : Scan) : Prop := ∃ before root, s = .complete before root

theorem document_of_not_isComplete {s : Scan} (h : ¬ s.IsComplete) :
    ∃ o : Open, s.document = ⟨o.before.reverse, Open.cut o.frames none⟩ := by
  cases s with
  | reading m o => exact ⟨o, rfl⟩
  | complete before root => exact absurd ⟨before, root, rfl⟩ h
  | broken o => exact ⟨o, rfl⟩

theorem moduleTree_of_not_isComplete {s : Scan} (h : ¬ s.IsComplete) :
    ∃ e, s.document.moduleTree = .error e := by
  obtain ⟨⟨before, frames⟩, ho⟩ := document_of_not_isComplete h
  rw [ho, Document.moduleTree]
  cases checkBefore [] before.reverse with
  | error e => exact ⟨e, rfl⟩
  | ok _ =>
    cases frames with
    | nil => exact ⟨_, rfl⟩
    | cons f fs =>
      obtain ⟨name, attributes, content, hcut⟩ := Open.cut_cons f fs none
      obtain ⟨e, he⟩ := readModule_unclosed name attributes content
      refine ⟨e, ?_⟩
      simp only [hcut]
      exact he

end Scan

theorem parse_eq_error_of_scan_eq {source : String} {s : Scan} (hs : scan source = s.document)
    (h : ¬ s.IsComplete) : ∃ fault, Config.parse .xml source = .error (.document .xml fault) := by
  obtain ⟨e, he⟩ := Scan.moduleTree_of_not_isComplete h
  refine ⟨e, ?_⟩
  simp only [Config.parse, parseConfig, hs, he]
  rfl

/-! ### More text after the root -/

/-- A byte order mark counts only where a text begins, so text put after another is scanned
from where the scanner stands. -/
theorem scan_append {d : String} (hd : d ≠ "") (t : String) :
    ∃ cs, scan d = (Scan.start.run cs).document ∧
      scan (d ++ t) = (Scan.start.run (cs ++ t.toList)).document := by
  have hne : d.toList ≠ [] := by simpa using hd
  obtain ⟨c, r, hc⟩ := List.exists_cons_of_ne_nil hne
  rw [scan, scan, String.toList_append, hc]
  by_cases hm : c = '\uFEFF'
  · subst hm
    exact ⟨r, rfl, rfl⟩
  · exact ⟨c :: r, by simp [hm], by simp [hm]⟩

/-- A text that loads also loads, as the same configuration, with anything behind it. -/
theorem parse_append {d : String} {c : Config} (h : Config.parse .xml d = .ok c) (t : String) :
    Config.parse .xml (d ++ t) = .ok c := by
  have hd : d ≠ "" := by
    rintro rfl
    cases h
  obtain ⟨cs, hscan, happend⟩ := scan_append hd t
  by_cases hcomplete : (Scan.start.run cs).IsComplete
  · obtain ⟨before, root, hrun⟩ := hcomplete
    have hsame : scan (d ++ t) = scan d := by
      rw [happend, hscan, Scan.run_append, hrun, Scan.run_complete]
    rw [← h, Config.parse, Config.parse, parseConfig, parseConfig, hsame]
  · obtain ⟨fault, he⟩ := parse_eq_error_of_scan_eq hscan hcomplete
    rw [he] at h
    cases h

theorem parse_append_garbage :
    Config.parse .xml "\uFEFF<!DOCTYPE m [<!ENTITY e '>'>]><m name='A'><x>]]></x></m>" =
        .ok ⟨[⟨"A", []⟩]⟩ ∧
      Config.parse .xml ("\uFEFF<!DOCTYPE m [<!ENTITY e '>'>]><m name='A'><x>]]></x></m>" ++
        "<module name=\"B\"/>&e</m><") = .ok ⟨[⟨"A", []⟩]⟩ :=
  have h : Config.parse .xml "\uFEFF<!DOCTYPE m [<!ENTITY e '>'>]><m name='A'><x>]]></x></m>" =
      .ok ⟨[⟨"A", []⟩]⟩ := by decide +kernel
  ⟨h, parse_append h _⟩

/-! ### Less text -/

namespace Scan

open Mode

variable {allowed : List Attribute → Prop}

/-- Before its last character, a root is still open. -/
theorem run_elementText_init {e : Element} {cs : List Char} (h : ElementText allowed e cs)
    (r : Bool) (before : List Node) :
    ∃ init m o, cs = init ++ ['>'] ∧ (reading (text r) ⟨before, []⟩).run init = reading m o := by
  cases h with
  | @empty name cs as ht =>
    exact ⟨_, _, _, by simp [emptyTag], run_emptyTag_init ht r ⟨before, []⟩⟩
  | @pair name cs blanks inside as inner ht hi hb =>
    obtain ⟨ns, r', hinside, -⟩ := readsAs_content hi false before ⟨name, cs, []⟩ []
    refine ⟨openTag name cs ++ inside ++ '<' :: '/' :: (name ++ blanks),
      endTag none (name ++ blanks).reverse, ⟨before, [Frame.extend ⟨name, cs, []⟩ ns]⟩,
      by simp [closeTag], ?_⟩
    rw [run_append, run_append, run_openTag ht, hinside, run_closeTag_init ht.isName hb]

/-- The end of the root is not passed before a text after which the scanner still reads. -/
theorem not_isComplete_of_isPrefix {s : Scan} {cs ds : List Char} {m : Mode} {o : Open}
    (h : s.run cs = reading m o) (hd : ds <+: cs) : ¬ (s.run ds).IsComplete := by
  rintro ⟨before, root, hc⟩
  obtain ⟨rest, rfl⟩ := hd
  rw [run_append, hc, run_complete] at h
  cases h

end Scan

theorem scan_of_isPrefix {allowed : List Attribute → Prop} {e : Element} {doc : List Char}
    (h : DocumentText allowed e doc) {cut : String} (hp : cut.toList <+: doc) :
    scan cut = (Scan.start.run cut.toList).document := by
  rw [scan]
  split
  · rename_i r hr
    obtain ⟨c, s, rfl, hc⟩ := h.head
    obtain ⟨rest, hrest⟩ := hp
    rw [hr] at hrest
    cases hrest
    exact absurd hc (by decide)
  · rfl

/-- A document that ends with its root loads, and no proper prefix of it does. -/
theorem parse_truncated {t : ModuleTree} {source : String} (h : Renders KeepsReserved source t) :
    Config.parse .xml source = .ok ⟨t.flatten⟩ ∧
      ∀ cut : String, cut.toList <+: source.toList → cut ≠ source →
        ∃ fault, Config.parse .xml cut = .error (.document .xml fault) := by
  refine ⟨?_, ?_⟩
  · simp only [Config.parse, h.presents.parseConfig_eq]
    rfl
  intro cut hp hne
  obtain ⟨e, hdoc, -⟩ := h.presents
  have hscan := scan_of_isPrefix hdoc hp
  obtain ⟨e, before, text, hs, hb, he, -⟩ := h
  obtain ⟨r, ns, hprolog, -⟩ := Scan.run_prolog hb false [] (by simp)
  obtain ⟨init, m, o, rfl, hinit⟩ := Scan.run_elementText_init he r ns
  have hopen : Scan.start.run (before ++ init) = .reading m o := by
    rw [Scan.run_append, Scan.start, hprolog, hinit]
  -- a proper prefix lacks at least the last character
  have hcut : cut.toList <+: before ++ init := by
    rw [hs, ← List.append_assoc] at hp
    rcases List.prefix_concat_iff.mp hp with heq | hp
    · rw [List.append_assoc, ← hs, String.toList_inj] at heq
      exact absurd heq hne
    · exact hp
  exact parse_eq_error_of_scan_eq hscan (Scan.not_isComplete_of_isPrefix hopen hcut)

/-- The text of the nested tree up to the end of an inner module. -/
def truncatedText : String :=
  "<module name='a&lt;b'><property name=\"k\" value='&#49;'/>" ++
  "<module name=\"&#xE9;\"><property name='k' value='&apos;'/><module name=''/></module>"

theorem parse_truncated_nested :
    Renders KeepsReserved nestedText nestedTree ∧
      truncatedText.toList <+: nestedText.toList ∧ truncatedText ≠ nestedText ∧
      Config.parse .xml nestedText = .ok ⟨nestedTree.flatten⟩ ∧
      ∃ fault, Config.parse .xml truncatedText = .error (.document .xml fault) :=
  have h : Renders KeepsReserved nestedText nestedTree := writes_nestedText.renders
  have hsplit : nestedText = truncatedText ++ "<property name=\"&#x6b;\"/></module>" := rfl
  have hp : truncatedText.toList <+: nestedText.toList := by
    rw [hsplit, String.toList_append]
    exact List.prefix_append _ _
  have hne : truncatedText ≠ nestedText := by decide +kernel
  have hboth := parse_truncated h
  ⟨h, hp, hne, hboth.1, hboth.2 truncatedText hp hne⟩

end CamelLint.Xml
