import CamelLint.Proofs.Xml.Tags
import Mathlib.Tactic.SplitIfs

/-! The scanner on written documents. Each construct of the grammar is one run of the
scanner from text to text: comments and instructions change nothing, tags open and
close elements, and content adds nodes that stand for its elements. From this, a
written document scans to its root. -/

namespace CamelLint.Xml.Scan

open Mode

/-! ### Comments, instructions and sections -/

theorem run_comment_body {body : List Char} (dashes : Nat) (o : Open)
    (h : ¬ "-->".toList <:+: List.replicate dashes '-' ++ body) :
    ∃ n, (reading (comment dashes) o).run body = reading (comment n) o := by
  induction body generalizing dashes with
  | nil => exact ⟨dashes, rfl⟩
  | cons c r ih =>
    rw [run_cons, step, stepMode]
    split_ifs with hc he
    · subst hc
      apply ih
      rwa [List.replicate_succ', List.append_assoc, List.singleton_append]
    · obtain ⟨rfl, hd⟩ := he
      obtain ⟨m, rfl⟩ : ∃ m, dashes = m + 2 := ⟨dashes - 2, by omega⟩
      refine absurd ⟨List.replicate m '-', r, ?_⟩ h
      simp [List.replicate_succ']
    · apply ih
      intro hr
      apply h
      simp only [List.replicate_zero, List.nil_append] at hr
      exact (hr.trans (List.suffix_cons c r).isInfix).trans (List.suffix_append _ _).isInfix

theorem run_instruction_body {body : List Char} {mark : Bool} (o : Open)
    (h : ¬ "?>".toList <:+: (if mark then ['?'] else []) ++ body) :
    ∃ m, (reading (instruction (some mark)) o).run body = reading (instruction (some m)) o := by
  induction body generalizing mark with
  | nil => exact ⟨mark, rfl⟩
  | cons c r ih =>
    rw [run_cons, step, stepMode]
    split_ifs with hc
    · obtain ⟨rfl, rfl⟩ := hc
      exact absurd ⟨[], r, rfl⟩ h
    · apply ih
      intro hr
      apply h
      by_cases hq : c = '?'
      · subst hq
        exact hr.trans (List.suffix_append _ _).isInfix
      · simp only [hq, decide_false, Bool.false_eq_true, if_false, List.nil_append] at hr
        exact (hr.trans (List.suffix_cons c r).isInfix).trans (List.suffix_append _ _).isInfix

theorem run_cdata_body {body done : List Char} (o : Open)
    (h : ¬ "]]>".toList <:+: done.reverse ++ body) :
    (reading (cdata done) o).run body = reading (cdata (body.reverse ++ done)) o := by
  induction body generalizing done with
  | nil => rfl
  | cons c r ih =>
    have hstep : stepMode (cdata done) o c = reading (cdata (c :: done)) o := by
      rw [stepMode]
      rintro s rfl rfl
      exact h ⟨s.reverse, r, by simp⟩
    rw [run_cons, step, hstep, ih (by simpa using h)]
    simp

/-- A comment or an instruction leaves no trace. -/
theorem run_aside {piece : List Char} (h : Aside piece) (r : Bool) (o : Open) :
    (reading (text r) o).run piece = reading (text false) o := by
  cases h with
  | @comment body hb =>
    have hopen : (reading (text r) o).run "<!--".toList = reading (comment 0) o := rfl
    obtain ⟨n, hn⟩ := run_comment_body 0 o (by simpa using hb)
    rw [run_append, run_append, hopen, hn]
    simp [step, stepMode]
  | @instruction body hne hf hb =>
    have hopen : (reading (text r) o).run "<?".toList = reading (instruction none) o := rfl
    cases body with
    | nil => exact absurd rfl hne
    | cons c s =>
      have hc : c ≠ '>' := by simpa using hf
      have hfirst : stepMode (instruction none) o c = reading (instruction (some (c = '?'))) o := by
        rw [stepMode, if_neg hc]
      have hrest : ¬ "?>".toList <:+: (if decide (c = '?') then ['?'] else []) ++ s := by
        intro hr
        apply hb
        by_cases hq : c = '?'
        · subst hq
          exact hr
        · simp only [hq, decide_false, Bool.false_eq_true, if_false, List.nil_append] at hr
          exact hr.trans (List.suffix_cons c s).isInfix
      obtain ⟨m, hm⟩ := run_instruction_body o hrest
      rw [run_append, run_append, hopen, run_cons, step, hfirst, hm]
      simp [step, stepMode]

theorem run_cdata {body : List Char} (h : ¬ "]]>".toList <:+: body) (r : Bool) (o : Open) :
    (reading (text r) o).run ("<![CDATA[".toList ++ body ++ "]]>".toList) =
      reading (text false) (o.push (.cdata (joinLines false body))) := by
  have hopen : (reading (text r) o).run "<![CDATA[".toList = reading (cdata []) o := rfl
  rw [run_append, run_append, hopen, run_cdata_body o (by simpa using h)]
  simp [step, stepMode]

theorem run_reference {name : List Char} {c : Char} (h : Refers name c) (r : Bool) (o : Open)
    (cs : List Char) :
    (reading (text r) o).run ('&' :: (name ++ ';' :: cs)) =
      (reading (text false) (o.push (.reference name))).run cs := by
  have hname : ∀ (s done : List Char), (∀ d ∈ s, d ≠ ';' ∧ d ≠ '&' ∧ d ≠ '<') →
      (reading (reference done) o).run s = reading (reference (s.reverse ++ done)) o := by
    intro s
    induction s with
    | nil => intro done _; rfl
    | cons d s ih =>
      intro done hs
      obtain ⟨h1, h2, h3⟩ := hs d List.mem_cons_self
      rw [run_cons, step, stepMode, if_neg h1, if_neg (by simp [h2, h3]),
        ih _ fun e he => hs e (List.mem_cons_of_mem d he)]
      simp
  have hopen : (reading (text r) o).step '&' = reading (reference []) o := rfl
  rw [run_cons, hopen, run_append, hname name [] h.forall_ne, run_cons]
  simp [step, stepMode]

/-! ### Tags -/

theorem ne_of_isSpace {c : Char} (h : isSpace c = true) : c ≠ '>' ∧ isQuote c = false := by
  simp only [isSpace, Bool.or_eq_true, decide_eq_true_eq] at h
  rcases h with ((rfl | rfl) | rfl) | rfl <;> decide

theorem ne_of_isNameChar {c : Char} (h : isNameChar c = true) : c ≠ '>' ∧ isQuote c = false := by
  obtain ⟨-, hq, hm⟩ := isNameChar_spec h
  refine ⟨?_, hq⟩
  rintro rfl
  exact hm (by decide)

/-- Inside a start tag, the text neither ends the tag nor leaves a quote open. -/
def Quiet (cs : List Char) : Prop :=
  ∀ done o, (reading (startTag none done) o).run cs =
    reading (startTag none (cs.reverse ++ done)) o

theorem Quiet.append {cs ds : List Char} (hc : Quiet cs) (hd : Quiet ds) : Quiet (cs ++ ds) := by
  intro done o
  rw [run_append, hc, hd]
  simp

theorem quiet_of_forall {cs : List Char} (h : ∀ c ∈ cs, c ≠ '>' ∧ isQuote c = false) :
    Quiet cs := by
  induction cs with
  | nil => intro done o; rfl
  | cons c r ih =>
    obtain ⟨hc, hq⟩ := h c List.mem_cons_self
    intro done o
    rw [run_cons, step, stepMode, stepTag, if_neg (by simp [hc]), quoteAfter, if_neg (by simp [hq]),
      ih fun d hd => h d (List.mem_cons_of_mem c hd)]
    simp

theorem quiet_of_blanks {cs : List Char} (h : Blanks cs) : Quiet cs :=
  quiet_of_forall fun c hc => ne_of_isSpace (h c hc)

theorem quiet_of_nameChars {cs : List Char} (h : ∀ c ∈ cs, isNameChar c = true) : Quiet cs :=
  quiet_of_forall fun c hc => ne_of_isNameChar (h c hc)

theorem run_endTag {cs done : List Char} {o : Open} (h : ∀ c ∈ cs, c ≠ '>' ∧ isQuote c = false) :
    (reading (endTag none done) o).run cs = reading (endTag none (cs.reverse ++ done)) o := by
  induction cs generalizing done with
  | nil => rfl
  | cons c r ih =>
    obtain ⟨hc, hq⟩ := h c List.mem_cons_self
    rw [run_cons, step, stepMode, if_neg (by simp [hc]), quoteAfter, if_neg (by simp [hq]),
      ih fun d hd => h d (List.mem_cons_of_mem c hd)]
    simp

/-- A quoted value may hold anything but its quote, also what would end the tag. -/
theorem quiet_quoted {quote : Char} {raw : List Char} (hq : isQuote quote = true)
    (hr : quote ∉ raw) : Quiet (quote :: (raw ++ [quote])) := by
  have hne : quote ≠ '>' := by
    rintro rfl
    exact absurd hq (by decide)
  have hraw : ∀ (s done : List Char) (o : Open), quote ∉ s →
      (reading (startTag (some quote) done) o).run s =
        reading (startTag (some quote) (s.reverse ++ done)) o := by
    intro s
    induction s with
    | nil => intro done o _; rfl
    | cons c s ih =>
      intro done o hs
      rw [List.mem_cons, not_or] at hs
      rw [run_cons, step, stepMode, stepTag, if_neg (by simp), quoteAfter, if_neg (Ne.symm hs.1),
        ih _ _ hs.2]
      simp
  intro done o
  rw [run_cons, step, stepMode, stepTag, if_neg (by simp [hne]), quoteAfter, if_pos hq, run_append,
    hraw raw _ o hr, run_cons, step, stepMode, stepTag, if_neg (by simp), quoteAfter, if_pos rfl]
  simp

theorem quiet_attributes {as : List Attribute} {cs : List Char} (h : AttributesText as cs) :
    Quiet cs := by
  induction h with
  | nil h => exact quiet_of_blanks h
  | @cons gap key before after raw rest quote as hg hn hk hb ha hq hr hs ih =>
    have hequals : Quiet ['='] := quiet_of_forall (List.forall_mem_singleton.mpr (by decide))
    have hall := ((((quiet_of_blanks hg).append (quiet_of_nameChars hk.2)).append
      (quiet_of_blanks hb)).append hequals).append
        (((quiet_of_blanks ha).append (quiet_quoted hq hr)).append ih)
    simpa using hall

/-- What the text after the name of a tag begins and ends with. -/
theorem attributes_ends {as : List Attribute} {cs : List Char} (h : AttributesText as cs) :
    (∀ c ∈ cs.head?, isSpace c = true) ∧ ∀ c ∈ cs.getLast?, c ≠ '/' := by
  induction h with
  | @nil blanks h =>
    constructor
    · intro c hc
      exact h c (List.mem_of_mem_head? hc)
    · rintro c hc rfl
      exact absurd (h '/' (List.mem_of_mem_getLast? hc)) (by decide)
  | @cons gap key before after raw rest quote as hg hn hk hb ha hq hr hs ih =>
    constructor
    · cases gap with
      | nil => exact absurd rfl hn
      | cons g gap =>
        intro c hc
        simp only [List.cons_append, List.head?_cons, Option.mem_def, Option.some.injEq] at hc
        subst hc
        exact hg g List.mem_cons_self
    · intro c hc
      have hsplit : gap ++ key ++ before ++ '=' :: (after ++ quote :: (raw ++ quote :: rest)) =
          gap ++ key ++ before ++ '=' :: (after ++ quote :: raw) ++ [quote] ++ rest := by simp
      rw [hsplit, List.getLast?_append, List.getLast?_concat] at hc
      cases hl : rest.getLast? with
      | some d =>
        rw [hl] at hc
        exact ih.2 c (hl.trans hc)
      | none =>
        rw [hl] at hc
        cases hc
        rintro rfl
        exact absurd hq (by decide)

section Tag

variable {allowed : List Attribute → Prop} {name cs : List Char} {as : List Attribute}

/-- The name of a tag ends at the first blank. -/
theorem splitName (h : IsTag allowed name as cs) :
    (name ++ cs).takeWhile (!isSpace ·) = name ∧ (name ++ cs).dropWhile (!isSpace ·) = cs := by
  have hname : ∀ c ∈ name, (!isSpace c) = true := by
    intro c hc
    rw [(isNameChar_spec (h.isName.2 c hc)).1]
    rfl
  have hcs : cs.takeWhile (!isSpace ·) = [] ∧ cs.dropWhile (!isSpace ·) = cs := by
    cases cs with
    | nil => exact ⟨rfl, rfl⟩
    | cons c r =>
      have hc : isSpace c = true := (attributes_ends h.attributes).1 c rfl
      simp [hc]
  rw [List.takeWhile_append_of_pos hname, List.dropWhile_append_of_pos hname, hcs.1, hcs.2]
  simp

theorem run_tag (h : IsTag allowed name as cs) (r : Bool) (o : Open) :
    (reading (text r) o).run ('<' :: (name ++ cs)) =
      reading (startTag none (name ++ cs).reverse) o := by
  obtain ⟨c, s, rfl, hc, hs⟩ := h.isName.exists_cons
  obtain ⟨-, hq, hm⟩ := isNameChar_spec hc
  have hne : c ≠ '!' ∧ c ≠ '/' ∧ c ≠ '?' ∧ c ≠ '>' := by
    refine ⟨?_, ?_, ?_, ?_⟩ <;> rintro rfl <;> exact hm (by decide)
  have hfirst : stepMode opened o c = reading (startTag none [c]) o := by
    rw [stepMode, if_neg hne.1, if_neg hne.2.1, if_neg hne.2.2.1, stepTag,
      if_neg (by simp [hne.2.2.2]), quoteAfter, if_neg (by simp [hq])]
  have hopen : (reading (text r) o).step '<' = reading opened o := rfl
  rw [run_cons, hopen, List.cons_append, run_cons, step, hfirst,
    (quiet_of_nameChars hs).append (quiet_attributes h.attributes)]
  simp

/-- A start tag opens an element. -/
theorem run_openTag (h : IsTag allowed name as cs) (r : Bool) (o : Open) :
    (reading (text r) o).run (openTag name cs) =
      reading (text false) { o with frames := ⟨name, cs, []⟩ :: o.frames } := by
  have hslash : ∀ s, (name ++ cs).reverse ≠ '/' :: s := by
    intro s hs
    have hlast : (name ++ cs).getLast? = some '/' := by
      rw [← List.head?_reverse, hs, List.head?_cons]
    rw [List.getLast?_append] at hlast
    cases hl : cs.getLast? with
    | some c =>
      rw [hl] at hlast
      exact (attributes_ends h.attributes).2 '/' (hl.trans hlast) rfl
    | none =>
      rw [hl] at hlast
      have hm := (isNameChar_spec (h.isName.2 '/' (List.mem_of_mem_getLast? hlast))).2.2
      exact hm (by decide)
  have henter : enter (name ++ cs).reverse o =
      reading (text false) { o with frames := ⟨name, cs, []⟩ :: o.frames } := by
    unfold enter
    split
    · rename_i s hs
      split at hs
      · rename_i heq
        exact absurd heq (hslash _)
      · cases hs
        simp [splitName h]
  have hsplit : openTag name cs = '<' :: (name ++ cs) ++ ['>'] := by simp [openTag]
  rw [hsplit, run_append, run_tag h]
  exact henter

/-- The tag of an element without content is open up to its last character. -/
theorem run_emptyTag_init (h : IsTag allowed name as cs) (r : Bool) (o : Open) :
    (reading (text r) o).run ('<' :: (name ++ cs) ++ ['/']) =
      reading (startTag none ('/' :: (name ++ cs).reverse)) o := by
  have hslash : Quiet ['/'] := quiet_of_forall (List.forall_mem_singleton.mpr (by decide))
  rw [run_append, run_tag h, hslash]
  rfl

/-- The tag of an element without content closes it at once. -/
theorem run_emptyTag (h : IsTag allowed name as cs) (r : Bool) (o : Open) :
    (reading (text r) o).run (emptyTag name cs) =
      close { o with frames := ⟨name, cs, []⟩ :: o.frames } := by
  have henter : enter ('/' :: (name ++ cs).reverse) o =
      close { o with frames := ⟨name, cs, []⟩ :: o.frames } := by
    simp [enter, splitName h]
  have hsplit : emptyTag name cs = '<' :: (name ++ cs) ++ ['/'] ++ ['>'] := by simp [emptyTag]
  rw [hsplit, run_append, run_emptyTag_init h]
  exact henter

/-- An end tag is open up to its last character. -/
theorem run_closeTag_init {blanks : List Char} (hn : IsName name) (hb : Blanks blanks) (r : Bool)
    (o : Open) :
    (reading (text r) o).run ('<' :: '/' :: (name ++ blanks)) =
      reading (endTag none (name ++ blanks).reverse) o := by
  have hall : ∀ c ∈ name ++ blanks, c ≠ '>' ∧ isQuote c = false := by
    intro c hc
    rcases List.mem_append.mp hc with hc | hc
    · exact ne_of_isNameChar (hn.2 c hc)
    · exact ne_of_isSpace (hb c hc)
  have hopen : (reading (text r) o).run ('<' :: '/' :: (name ++ blanks)) =
      (reading (endTag none []) o).run (name ++ blanks) := rfl
  rw [hopen, run_endTag hall, List.append_nil]

/-- An end tag closes the element of its name. -/
theorem run_closeTag {blanks : List Char} (hn : IsName name) (hb : Blanks blanks) (r : Bool)
    (before : List Node) (f : Frame) (fs : List Frame) (hf : f.name = name) :
    (reading (text r) ⟨before, f :: fs⟩).run (closeTag name blanks) =
      close ⟨before, f :: fs⟩ := by
  have hleave : leave (name ++ blanks).reverse ⟨before, f :: fs⟩ = close ⟨before, f :: fs⟩ := by
    have hdrop : (name ++ blanks).reverse.dropWhile isSpace = name.reverse := by
      have hblanks : ∀ c ∈ blanks.reverse, isSpace c = true := by
        intro c hc
        exact hb c (List.mem_reverse.mp hc)
      rw [List.reverse_append, List.dropWhile_append_of_pos hblanks]
      cases hr : name.reverse with
      | nil => rfl
      | cons c s =>
        have hc : c ∈ name := List.mem_reverse.mp (hr ▸ List.mem_cons_self)
        rw [List.dropWhile_cons, if_neg (by simp [(isNameChar_spec (hn.2 c hc)).1])]
    unfold leave
    rw [hdrop]
    cases hr : name.reverse with
    | nil => exact absurd (List.reverse_eq_nil_iff.mp hr) hn.1
    | cons c s => simp [← hr, hf]
  have hsplit : closeTag name blanks = '<' :: '/' :: (name ++ blanks) ++ ['>'] := by
    simp [closeTag]
  rw [hsplit, run_append, run_closeTag_init hn hb]
  exact hleave

end Tag

end CamelLint.Xml.Scan

namespace CamelLint.Xml

/-! ### Content -/

/-- A node that is no element, with a known reference if it is one. -/
def Node.IsText : Node → Prop
  | .char _ | .cdata _ => True
  | .reference name => ∃ c, Refers name c
  | _ => False

/-- Nodes that stand for elements: one for each, and text anywhere around them. -/
inductive NodesOf (allowed : List Attribute → Prop) : List Element → List Node → Prop where
  | nil : NodesOf allowed [] []
  | text {n : Node} {es : List Element} {ns : List Node} (hn : n.IsText)
      (h : NodesOf allowed es ns) : NodesOf allowed es (n :: ns)
  | element {name cs : List Char} {as : List Attribute} {inner es : List Element}
      {content ns : List Node} (ht : IsTag allowed name as cs)
      (hi : NodesOf allowed inner content) (h : NodesOf allowed es ns) :
      NodesOf allowed (.mk name as inner :: es) (.element name cs content true :: ns)

/-- The frame with more content. -/
def Frame.extend (f : Frame) (ns : List Node) : Frame :=
  { f with content := ns.reverse ++ f.content }

@[simp] theorem Frame.extend_extend (f : Frame) (ns ms : List Node) :
    (f.extend ns).extend ms = f.extend (ns ++ ms) := by
  simp [Frame.extend]

theorem Open.push_frame (before : List Node) (f : Frame) (fs : List Frame) (n : Node) :
    Open.push ⟨before, f :: fs⟩ n = ⟨before, f.extend [n] :: fs⟩ := rfl

namespace Scan

open Mode

variable {allowed : List Attribute → Prop}

/-- From here the text is read as content that stands for the elements. -/
def ReadsAs (allowed : List Attribute → Prop) (es : List Element) (cs : List Char) : Prop :=
  ∀ r before f fs, ∃ ns r',
    (reading (text r) ⟨before, f :: fs⟩).run cs = reading (text r') ⟨before, f.extend ns :: fs⟩ ∧
    NodesOf allowed es ns

/-- What one node adds in front of content. -/
theorem ReadsAs.push_text {es : List Element} {cs : List Char} (h : ReadsAs allowed es cs)
    {n : Node} (hn : n.IsText) (r : Bool) (before : List Node) (f : Frame) (fs : List Frame) :
    ∃ ns r', (reading (text r) ((⟨before, f :: fs⟩ : Open).push n)).run cs =
      reading (text r') ⟨before, f.extend ns :: fs⟩ ∧ NodesOf allowed es ns := by
  obtain ⟨ns, r', hrun, hns⟩ := h r before (f.extend [n]) fs
  refine ⟨n :: ns, r', ?_, .text hn hns⟩
  rw [Open.push_frame, hrun, Frame.extend_extend, List.singleton_append]

theorem readsAs_char {c : Char} {es : List Element} {cs : List Char} (hl : c ≠ '<') (ha : c ≠ '&')
    (h : ReadsAs allowed es cs) : ReadsAs allowed es (c :: cs) := by
  intro r before f fs
  rw [run_cons, step, stepMode, if_neg hl, if_neg ha]
  cases lineChar? r c with
  | some d => exact h.push_text (n := .char d) trivial _ before f fs
  | none => exact h false before f fs

/-- The content of an element between its tags is read into its node. -/
theorem run_pair {name cs blanks inside : List Char} {as : List Attribute} {inner : List Element}
    (ht : IsTag allowed name as cs) (hi : ReadsAs allowed inner inside) (hb : Blanks blanks)
    (r : Bool) (o : Open) :
    ∃ content, (reading (text r) o).run (openTag name cs ++ inside ++ closeTag name blanks) =
      close { o with frames := ⟨name, cs, content.reverse⟩ :: o.frames } ∧
      NodesOf allowed inner content := by
  obtain ⟨content, r', hrun, hns⟩ := hi false o.before ⟨name, cs, []⟩ o.frames
  refine ⟨content, ?_, hns⟩
  rw [run_append, run_append, run_openTag ht, hrun, run_closeTag ht.isName hb _ _ _ _ rfl]
  simp [Frame.extend]

theorem readsAs_content {es : List Element} {cs : List Char} (h : Content allowed es cs) :
    ReadsAs allowed es cs := by
  induction h with
  | nil =>
    intro r before f fs
    exact ⟨[], r, rfl, .nil⟩
  | char hl ha h ih => exact readsAs_char hl ha ih
  | @reference name c es cs hr h ih =>
    intro r before f fs
    rw [run_reference hr]
    exact ih.push_text (n := .reference name) ⟨c, hr⟩ _ before f fs
  | @cdata body es cs hb h ih =>
    intro r before f fs
    rw [run_append, run_cdata hb]
    exact ih.push_text (n := .cdata (joinLines false body)) trivial _ before f fs
  | aside hp h ih =>
    intro r before f fs
    rw [run_append, run_aside hp]
    exact ih false before f fs
  | @empty name cs as es ds ht h ih =>
    intro r before f fs
    rw [run_append, run_emptyTag ht]
    obtain ⟨ns, r', hrun, hns⟩ := ih false before (f.extend [.element name cs [] true]) fs
    refine ⟨.element name cs [] true :: ns, r', ?_, .element ht .nil hns⟩
    rw [Frame.extend_extend, List.singleton_append] at hrun
    exact hrun
  | @pair name cs blanks inside as inner es ds ht hi hb h ihi ih =>
    intro r before f fs
    obtain ⟨content, hpair, hcontent⟩ := run_pair ht ihi hb r ⟨before, f :: fs⟩
    rw [run_append, hpair]
    obtain ⟨ns, r', hrun, hns⟩ := ih false before (f.extend [.element name cs content true]) fs
    refine ⟨.element name cs content true :: ns, r', ?_, .element ht hcontent hns⟩
    rw [Frame.extend_extend, List.singleton_append] at hrun
    rw [← hrun]
    simp [close, Open.push_frame]

/-- The scanner completes at the end of a root. -/
theorem run_elementText {e : Element} {cs : List Char} (h : ElementText allowed e cs) (r : Bool)
    (before : List Node) :
    ∃ n, (reading (text r) ⟨before, []⟩).run cs = complete before n ∧ NodesOf allowed [e] [n] := by
  cases h with
  | @empty name cs as ht =>
    refine ⟨.element name cs [] true, ?_, .element ht .nil .nil⟩
    rw [run_emptyTag ht]
    rfl
  | @pair name cs blanks inside as inner ht hi hb =>
    obtain ⟨content, hpair, hcontent⟩ := run_pair ht (readsAs_content hi) hb r ⟨before, []⟩
    refine ⟨.element name cs content true, ?_, .element ht hcontent .nil⟩
    rw [hpair]
    simp [close]

/-! ### Documents -/

/-- A blank character in front of the root. -/
def IsBlankNode (n : Node) : Prop := ∃ c, n = .char c ∧ isSpace c = true

theorem isSpace_lineChar? {r : Bool} {c d : Char} (hc : isSpace c = true)
    (h : lineChar? r c = some d) : isSpace d = true := by
  simp only [isSpace, Bool.or_eq_true, decide_eq_true_eq] at hc
  rcases hc with ((rfl | rfl) | rfl) | rfl <;> cases r <;> cases h <;> rfl

theorem run_prolog {cs : List Char} (h : Prolog cs) (r : Bool) (ns : List Node)
    (hn : ∀ n ∈ ns, IsBlankNode n) :
    ∃ r' ms, (reading (text r) ⟨ns, []⟩).run cs = reading (text r') ⟨ms, []⟩ ∧
      ∀ n ∈ ms, IsBlankNode n := by
  induction h generalizing r ns with
  | nil => exact ⟨r, ns, rfl, hn⟩
  | @blank c cs hc h ih =>
    have hne : c ≠ '<' ∧ c ≠ '&' := by
      constructor <;> rintro rfl <;> exact absurd hc (by decide)
    rw [run_cons, step, stepMode, if_neg hne.1, if_neg hne.2]
    cases hd : lineChar? r c with
    | none => exact ih false ns hn
    | some d =>
      apply ih (decide (c = '\r')) (.char d :: ns)
      intro n hm
      rcases List.mem_cons.mp hm with rfl | hm
      · exact ⟨d, rfl, isSpace_lineChar? hc hd⟩
      · exact hn n hm
  | aside hp h ih =>
    rw [run_append, run_aside hp]
    exact ih false ns hn

end Scan

theorem text?_of_blank {ns : List Node} (h : ∀ n ∈ ns, Scan.IsBlankNode n) :
    ∃ t, Node.text? ns = some t ∧ t.all isSpace = true := by
  induction ns with
  | nil => exact ⟨[], rfl, rfl⟩
  | cons n r ih =>
    obtain ⟨c, rfl, hc⟩ := h n List.mem_cons_self
    obtain ⟨t, ht, hall⟩ := ih fun m hm => h m (List.mem_cons_of_mem _ hm)
    refine ⟨c :: t, ?_, ?_⟩
    · rw [Node.text?, ht, Option.map_some]
    · rw [List.all_cons, hc, hall]
      rfl

/-- Blanks before the root are passed over. -/
theorem checkBefore_of_blank {run ns : List Node} (hr : ∀ n ∈ run, Scan.IsBlankNode n)
    (hn : ∀ n ∈ ns, Scan.IsBlankNode n) : checkBefore run ns = .ok () := by
  induction ns generalizing run with
  | nil =>
    obtain ⟨t, ht, hall⟩ := text?_of_blank fun n hm => hr n (List.mem_reverse.mp hm)
    rw [checkBefore, checkBefore.checkRun, ht]
    simp [hall]
  | cons n r ih =>
    obtain ⟨c, rfl, hc⟩ := hn n List.mem_cons_self
    rw [checkBefore]
    · apply ih
      · intro m hm
        rcases List.mem_cons.mp hm with rfl | hm
        · exact ⟨c, rfl, hc⟩
        · exact hr m hm
      · exact fun m hm => hn m (List.mem_cons_of_mem _ hm)
    · simp

/-- A written document begins with a blank or with markup. -/
theorem DocumentText.head {allowed : List Attribute → Prop} {e : Element} {doc : List Char}
    (h : DocumentText allowed e doc) : ∃ c r, doc = c :: r ∧ (c = '<' ∨ isSpace c = true) := by
  obtain ⟨before, cs, after, rfl, hp, he⟩ := h
  cases hp with
  | nil => cases he with
    | empty ht => exact ⟨'<', _, rfl, .inl rfl⟩
    | pair ht hi hb => exact ⟨'<', _, rfl, .inl rfl⟩
  | blank hc hp => exact ⟨_, _, rfl, .inr hc⟩
  | aside ha hp => cases ha with
    | comment hb => exact ⟨'<', _, rfl, .inl rfl⟩
    | instruction hn hf hb => exact ⟨'<', _, rfl, .inl rfl⟩

/-- A written document scans to a root that stands for its element, with nothing but blanks
before it. -/
theorem DocumentText.scan_eq {allowed : List Attribute → Prop} {e : Element} {doc : List Char}
    (h : DocumentText allowed e doc) :
    ∃ before root, scan (String.ofList doc) = ⟨before, some root⟩ ∧
      checkBefore [] before = .ok () ∧ NodesOf allowed [e] [root] := by
  have hmark : ∀ r, doc ≠ '\uFEFF' :: r := by
    rintro r rfl
    obtain ⟨c, s, hd, hc⟩ := h.head
    cases hd
    exact absurd hc (by decide)
  obtain ⟨before, cs, after, rfl, hp, he⟩ := h
  obtain ⟨r, ns, hprolog, hns⟩ := Scan.run_prolog hp false [] (by simp)
  obtain ⟨root, hroot, hnodes⟩ := Scan.run_elementText he r ns
  refine ⟨ns.reverse, root, ?_, checkBefore_of_blank (by simp) ?_, hnodes⟩
  · rw [scan, String.toList_ofList]
    split
    · rename_i heq
      exact absurd heq (hmark _)
    · rw [Scan.run_append, Scan.run_append, Scan.start, hprolog, hroot, Scan.run_complete]
      rfl
  · intro n hn
    exact hns n (List.mem_reverse.mp hn)

end CamelLint.Xml
