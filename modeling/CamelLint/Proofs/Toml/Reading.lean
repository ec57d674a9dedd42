import CamelLint.Proofs.Toml.Lexing

/-! The reader on written texts. Each construct of the grammar leads it from one state to
another: a path to its parts, an assignment to a complete value, the items of a list
one after another to what they add up to. From this, the lines of a document lead to
its sections. -/

namespace CamelLint.Toml

/-- The text leads the reader from one state to another. -/
def Leads (r : Reading) (cs : List Char) (r' : Reading) : Prop :=
  ∃ ts, Lexes cs ts ∧ r.run ts = r'

/-- The text is punctuation that leaves the state as it is. -/
def Skips (r : Reading) (cs : List Char) : Prop :=
  ∀ c ∈ cs, ∃ t, Lex.punctuation? c = some t ∧ r.step t = r

namespace Leads

variable {r r' r'' : Reading} {cs ds : List Char} {c : Char} {t : Token}

theorem nil (r : Reading) : Leads r [] r := ⟨[], lexes_nil, rfl⟩

theorem token (h : Lexes cs [t]) (hs : r.step t = r') : Leads r cs r' := ⟨[t], h, hs⟩

theorem punctuated (h : Leads r cs r') (hc : Lex.punctuation? c = some t)
    (hd : Leads (r'.step t) ds r'') : Leads r (cs ++ c :: ds) r'' := by
  obtain ⟨ts, hts, rfl⟩ := h
  obtain ⟨us, hus, rfl⟩ := hd
  exact ⟨ts ++ t :: us, hts.punctuated hc hus, Reading.run_append r ts (t :: us)⟩

theorem punctuation (hc : Lex.punctuation? c = some t) (hd : Leads (r.step t) ds r') :
    Leads r (c :: ds) r' :=
  (nil r).punctuated hc hd

theorem append_skipped (h : Leads r cs r') (hd : Skips r' ds) : Leads r (cs ++ ds) r' := by
  induction ds generalizing cs with
  | nil => rwa [List.append_nil]
  | cons c ds ih =>
    obtain ⟨t, ht, hs⟩ := hd c List.mem_cons_self
    have hc : Leads r (cs ++ [c]) r' := h.punctuated ht (hs.symm ▸ nil r')
    rw [List.append_cons]
    exact ih hc fun d hm => hd d (List.mem_cons_of_mem c hm)

theorem skipped_append (hd : Skips r ds) (h : Leads r cs r') : Leads r (ds ++ cs) r' := by
  induction ds with
  | nil => exact h
  | cons c ds ih =>
    obtain ⟨t, ht, hs⟩ := hd c List.mem_cons_self
    have hrest := ih fun d hm => hd d (List.mem_cons_of_mem c hm)
    exact punctuation ht (hs.symm ▸ hrest)

end Leads

theorem skips_of_blanks {r : Reading} {cs : List Char} (h : Blanks cs)
    (hr : ∀ c, r.step (.blank c) = r) : Skips r cs := by
  intro c hc
  rcases h c hc with rfl | rfl
  · exact ⟨_, rfl, hr ' '⟩
  · exact ⟨_, rfl, hr '\t'⟩

theorem skips_of_gap {r : Reading} {cs : List Char} (h : Gap cs)
    (hr : ∀ c, r.step (.blank c) = r) (hn : r.step .newline = r) : Skips r cs := by
  intro c hc
  rcases h c hc with rfl | rfl | rfl
  · exact ⟨_, rfl, hr ' '⟩
  · exact ⟨_, rfl, hr '\t'⟩
  · exact ⟨_, rfl, hn⟩

/-! ### Paths -/

namespace KeyParts

/-- The tokens that are parts of a path. -/
theorem part?_cases {t : Token} {part : String} (h : part? t = some part) :
    (∃ w, t = .word w) ∨ ∃ s, t = .string s false := by
  unfold part? at h
  split at h
  · exact .inl ⟨_, rfl⟩
  · exact .inr ⟨_, rfl⟩
  · cases h

theorem step?_part {t : Token} {part : String} (h : part? t = some part) {parts : List String}
    (hl : parts.length < depthLimit) :
    step? ⟨parts, true⟩ t = some ⟨part :: parts, false⟩ := by
  rcases part?_cases h with ⟨w, rfl⟩ | ⟨s, rfl⟩ <;> simp [step?, hl, h]

theorem none_step?_part {t : Token} {part : String} (h : part? t = some part) :
    none.step? t = some ⟨[part], false⟩ :=
  step?_part h (by decide)

/-- The tokens by which a path goes on are none of those that end it. -/
theorem step?_ne {k k' : KeyParts} {t : Token} (h : k.step? t = some k') :
    t ≠ .equals ∧ t ≠ .closeBracket ∧ t ≠ .newline := by
  refine ⟨?_, ?_, ?_⟩ <;> rintro rfl <;> simp [step?, part?] at h

end KeyParts

/-- A path begins in this state, and goes on in the states that its parts so far lead to. -/
structure ReadsPath (r : Reading) (goesOn : KeyParts → Reading) : Prop where
  first : ∀ {t part}, KeyParts.part? t = some part → r.step t = goesOn ⟨[part], false⟩
  next : ∀ {k t k'}, KeyParts.step? k t = some k' → (goesOn k).step t = goesOn k'

section Paths

open Reading Expecting

theorem readsPath_statement (p : Progress) :
    ReadsPath (reading statement p) (fun k => reading (key k) p) where
  first h := by
    have hstep := KeyParts.none_step?_part h
    rcases KeyParts.part?_cases h with ⟨w, rfl⟩ | ⟨s, rfl⟩ <;> simp only [step, stepPlain, hstep]
  next {k t k'} h := by
    have hne := KeyParts.step?_ne h
    simp only [step, stepPlain]
    split
    · exact absurd rfl hne.1
    · rw [h]

theorem readsPath_inline (p : Progress) (entries : Entries Value) :
    ReadsPath (reading (inlineStart entries) p) (fun k => reading (inlineKey entries k) p) where
  first h := by
    have hstep := KeyParts.none_step?_part h
    rcases KeyParts.part?_cases h with ⟨w, rfl⟩ | ⟨s, rfl⟩ <;> simp only [step, stepPlain, hstep]
  next {k t k'} h := by
    have hne := KeyParts.step?_ne h
    simp only [step, stepPlain]
    split
    · exact absurd rfl hne.1
    · exact absurd rfl hne.2.2
    · rw [h]

theorem step_headerKey (p : Progress) (isArray : Bool) {k k' : KeyParts} {t : Token}
    (h : k.step? t = some k') :
    (reading (headerKey isArray k) p).step t = reading (headerKey isArray k') p := by
  have hne := KeyParts.step?_ne h
  simp only [step, stepPlain, stepHeaderKey]
  split
  · exact absurd rfl hne.2.1
  · rw [h]

theorem readsPath_header (p : Progress) :
    ReadsPath (reading header p) (fun k => reading (headerKey false k) p) where
  first h := by
    have hstep := KeyParts.none_step?_part h
    rcases KeyParts.part?_cases h with ⟨w, rfl⟩ | ⟨s, rfl⟩ <;>
      simp only [step, stepPlain, stepHeaderKey, hstep]
  next := step_headerKey p false

theorem readsPath_headerKey (p : Progress) (isArray : Bool) :
    ReadsPath (reading (headerKey isArray .none) p) (fun k => reading (headerKey isArray k) p) where
  first h := step_headerKey p isArray (KeyParts.none_step?_part h)
  next := step_headerKey p isArray

end Paths

namespace ReadsPath

variable {r r' : Reading} {goesOn : KeyParts → Reading} {cs ds before after : List Char}

theorem skips (h : ReadsPath r goesOn) (k : KeyParts) (hb : Blanks before) :
    Skips (goesOn k) before :=
  skips_of_blanks hb fun _ => h.next rfl

/-- After a part and a dot the path goes on. -/
theorem leads_dot (h : ReadsPath r goesOn) {parts : List String} {s : Reading}
    (hc : Leads s cs (goesOn ⟨parts, false⟩)) (hb : Blanks before) (ha : Blanks after)
    (hd : Leads (goesOn ⟨parts, true⟩) ds r') :
    Leads s (cs ++ before ++ '.' :: (after ++ ds)) r' := by
  have hdot : (goesOn ⟨parts, false⟩).step .dot = goesOn ⟨parts, true⟩ := h.next rfl
  refine (hc.append_skipped (h.skips _ hb)).punctuated rfl ?_
  rw [hdot]
  exact hd.skipped_append (h.skips _ ha)

theorem leads_parts (h : ReadsPath r goesOn) {path : List String} (hp : PathText path cs)
    {parts : List String} (hl : parts.length + path.length ≤ depthLimit) :
    Leads (goesOn ⟨parts, true⟩) cs (goesOn ⟨path.reverse ++ parts, false⟩) := by
  induction hp generalizing parts with
  | key hk =>
    obtain ⟨t, ht, hpart⟩ := hk.lexes
    exact .token ht (h.next (KeyParts.step?_part hpart (by simp at hl; omega)))
  | @dotted k path cs before after ds hk hb ha hp ih =>
    obtain ⟨t, ht, hpart⟩ := hk.lexes
    have hfirst : Leads (goesOn ⟨parts, true⟩) cs (goesOn ⟨k :: parts, false⟩) :=
      .token ht (h.next (KeyParts.step?_part hpart (by simp at hl; omega)))
    have hrest : Leads (goesOn ⟨k :: parts, true⟩) ds
        (goesOn ⟨path.reverse ++ k :: parts, false⟩) :=
      ih (by simp at hl ⊢; omega)
    simpa using h.leads_dot hfirst hb ha hrest

/-- A path leads to its parts. -/
theorem leads (h : ReadsPath r goesOn) {path : List String} (hp : PathText path cs)
    (hl : path.length ≤ depthLimit) : Leads r cs (goesOn ⟨path.reverse, false⟩) := by
  cases hp with
  | key hk =>
    obtain ⟨t, ht, hpart⟩ := hk.lexes
    exact .token ht (h.first hpart)
  | @dotted k path cs before after ds hk hb ha hp =>
    obtain ⟨t, ht, hpart⟩ := hk.lexes
    have hrest : Leads (goesOn ⟨[k], true⟩) ds (goesOn ⟨path.reverse ++ [k], false⟩) :=
      h.leads_parts hp (by simp at hl ⊢; omega)
    simpa using h.leads_dot (.token ht (h.first hpart)) hb ha hrest

end ReadsPath

/-! ### Assignments -/

/-- In this state a key begins, and after it and an equals sign the value that it gets. -/
def ReadsKey (r : Reading) (p : Progress) (owner : List String → Frame) : Prop :=
  ∃ goesOn, ReadsPath r goesOn ∧
    ∀ path, (goesOn ⟨path.reverse, false⟩).step .equals = .reading (.value (owner path)) p

section Assignments

open Reading Expecting

variable {p : Progress} {r r' : Reading} {owner : List String → Frame} {cs : List Char}

theorem readsKey_statement (p : Progress) : ReadsKey (reading statement p) p .line := by
  refine ⟨_, readsPath_statement p, ?_⟩
  intro path
  simp [step, stepPlain, KeyParts.path?]

theorem readsKey_inline (p : Progress) (entries : Entries Value) :
    ReadsKey (reading (inlineStart entries) p) p (.inline entries) := by
  refine ⟨_, readsPath_inline p entries, ?_⟩
  intro path
  simp [step, stepPlain, KeyParts.path?]

/-- An assignment leads where its value does. -/
theorem AssignText.leads {path : List String} {value : List Char → Prop}
    (h : AssignText path value cs) (hr : ReadsKey r p owner) (hl : path.length ≤ depthLimit)
    (hv : ∀ ds, value ds → Leads (reading (.value (owner path)) p) ds r') : Leads r cs r' := by
  obtain ⟨hp, hb, ha, hd⟩ := h
  obtain ⟨goesOn, hpath, heq⟩ := hr
  refine ((hpath.leads hp hl).append_skipped (hpath.skips _ hb)).punctuated rfl ?_
  rw [heq]
  exact (hv _ hd).skipped_append (skips_of_blanks ha fun _ => rfl)

theorem StringText.leads {s : String} (h : StringText s cs) (owner : Frame) :
    Leads (reading (value owner) p) cs (complete p (.string s) owner) :=
  .token h.lexes rfl

theorem PropertyText.leads {q : String × String} (h : PropertyText q cs)
    (hr : ReadsKey r p owner) : Leads r cs (complete p (.string q.2) (owner [q.1])) :=
  AssignText.leads h hr (by simp [depthLimit]) fun _ hs => hs.leads (owner [q.1])

end Assignments

/-! ### Lists -/

section Lists

open Reading Expecting

variable {p : Progress} {r : Reading} {cs : List Char} {α β : Type} {as : List α}
  {item : α → List Char → Prop} {start done : β → Reading} {add : β → α → Option β}

/-- Items lead from where they may begin to where they have ended, by what they add up to. -/
theorem Sequence.leads {separator : Char} {t : Token} {gap : List Char → Prop}
    (h : Sequence item separator gap as cs) (hs : Lex.punctuation? separator = some t)
    (hgap : ∀ b ds, gap ds → Skips (start b) ds) (hblank : ∀ b c, (done b).step (.blank c) = done b)
    (hnext : ∀ b, (done b).step t = start b)
    (hitem : ∀ a b b' ds, add b a = some b' → item a ds → Leads (start b) ds (done b'))
    {b b' : β} (hb : as.foldlM add b = some b') : Leads (start b) cs (done b') := by
  induction h generalizing b with
  | @last a before cs after hg hi ha =>
    have hone : add b a = some b' := by simpa using hb
    have hbefore := (hitem a b b' cs hone hi).skipped_append (hgap b _ hg)
    exact hbefore.append_skipped (skips_of_blanks ha (hblank b'))
  | @cons a rest before cs after ds hg hi ha hrest ih =>
    rw [List.foldlM_cons] at hb
    obtain ⟨c, hone, hmore⟩ := Option.bind_eq_some_iff.mp hb
    have hbefore := (hitem a b c cs hone hi).skipped_append (hgap b _ hg)
    refine (hbefore.append_skipped (skips_of_blanks ha (hblank c))).punctuated hs ?_
    rw [hnext]
    exact ih hmore

/-- Between brackets, items begin and end in these states, and the closing bracket may follow
in either. -/
structure ReadsItems (start done : β → Reading) (closing : Token) : Prop where
  blank_start : ∀ b c, (start b).step (.blank c) = start b
  blank_done : ∀ b c, (done b).step (.blank c) = done b
  comma : ∀ b, (done b).step .comma = start b
  close_eq : ∀ b, (start b).step closing = (done b).step closing

theorem readsItems_inline (p : Progress) :
    ReadsItems (fun m => reading (inlineStart m) p) (fun m => reading (inlineNext m) p)
      .closeBrace :=
  ⟨fun _ _ => rfl, fun _ _ => rfl, fun _ => rfl, fun _ => rfl⟩

theorem readsItems_array (p : Progress) :
    ReadsItems (fun vs => reading (.item vs) p) (fun vs => reading (itemNext vs) p)
      .closeBracket :=
  ⟨fun _ _ => rfl, fun _ _ => rfl, fun _ => rfl, fun _ => rfl⟩

theorem Bracketed.leads {opening closing : Char} {first last : Token}
    (h : Bracketed item opening closing as cs) (hf : Lex.punctuation? opening = some first)
    (hl : Lex.punctuation? closing = some last) (hr : ReadsItems start done last) {b b' : β}
    (hopen : r.step first = start b)
    (hitem : ∀ a b b' ds, add b a = some b' → item a ds → Leads (start b) ds (done b'))
    (hb : as.foldlM add b = some b') : Leads r cs ((done b').step last) := by
  cases h with
  | nil hblanks =>
    obtain rfl : b = b' := by simpa using hb
    have hskips := skips_of_blanks hblanks (hr.blank_start b)
    refine .punctuation hf ?_
    rw [hopen, ← hr.close_eq]
    exact ((Leads.nil (start b)).append_skipped hskips).punctuated hl (.nil _)
  | items hseq =>
    refine .punctuation hf ?_
    rw [hopen]
    refine (hseq.leads rfl ?_ hr.blank_done hr.comma hitem hb).punctuated hl (.nil _)
    exact fun b _ hgap => skips_of_blanks hgap (hr.blank_start b)

/-- A table in braces, wherever a table may begin. -/
theorem Bracketed.leads_table {add : Entries Value → α → Option (Entries Value)} {owner : Frame}
    {e : Expecting} (h : Bracketed item '\x7b' '\x7d' as cs)
    (hopen : (reading e p).step .openBrace = enter p owner (inlineStart []))
    (hp : p.stack.length < depthLimit)
    (hitem : ∀ a m m' ds, add m a = some m' → item a ds → ∀ q : Progress,
      q.stack.length ≤ p.stack.length + 1 →
      Leads (reading (inlineStart m) q) ds (reading (inlineNext m') q))
    {m : Entries Value} (hm : as.foldlM add [] = some m) :
    Leads (reading e p) cs (complete p (.table .inline m) owner) := by
  rw [enter, if_pos hp] at hopen
  exact h.leads rfl rfl (readsItems_inline _) hopen
    (fun a m m' ds ha hd => hitem a m m' ds ha hd _ (by simp)) hm

end Lists

/-! ### What lines say -/

/-- The table of properties, unless a key comes twice. -/
def propertyTable? (ps : List (String × String)) : Option (Entries Value) :=
  ps.foldlM (fun m q => addStatement .inline m ([q.1], .string q.2)) []

def Entry.statement? : Entry → Option (List String × Value)
  | .name s => some (["name"], .string s)
  | .property k v => some (["properties", k], .string v)
  | .properties ps => (propertyTable? ps).map fun m => (["properties"], .table .inline m)

def Entry.addTo? (origin : Origin) (m : Entries Value) (e : Entry) : Option (Entries Value) :=
  e.statement?.bind (addStatement origin m)

/-- Puts the inline table of a module in front of the ones before it. -/
def addItem? (items : List Value) (es : List Entry) : Option (List Value) :=
  (es.foldlM (Entry.addTo? .inline) []).map fun m => .table .inline m :: items

/-- Adds a statement to the current section. -/
def Progress.say (p : Progress) (s : List String × Value) : Progress :=
  { p with current := { p.current with statements := s :: p.current.statements } }

/-- The section before all headers, with nothing in it. -/
def Progress.initial : Progress := ⟨[], ⟨[], false, []⟩, []⟩

/-- The reader where a line may begin. -/
def Progress.betweenLines (p : Progress) : Reading := .reading .statement { p with stack := [] }

/-- The reader where a line may end. -/
def Progress.afterLine (p : Progress) : Reading := .reading .lineEnd { p with stack := [] }

def Line.addTo? (p : Progress) : Line → Option Progress
  | .header path isArray =>
    if path.length ≤ depthLimit then some (Reading.newSection p path isArray) else none
  | .entry e => e.statement?.map p.say
  | .property q => some (p.say ([q.1], .string q.2))
  | .modules ms =>
    (ms.foldlM addItem? []).map fun items => p.say (["module"], .array items.reverse false)

section Lines

open Reading Expecting

variable {p : Progress} {r : Reading} {cs : List Char}

theorem complete_inline {m m' : Entries Value} {path : List String} {v : Value}
    (h : addStatement .inline m (path, v) = some m') (p : Progress) :
    complete p v (.inline m path) = reading (inlineNext m') p := by
  rw [complete, h]

theorem EntryText.leads {owner : List String → Frame} {e : Entry} (h : EntryText e cs)
    (hr : ReadsKey r p owner) (hp : p.stack.length < depthLimit) {s : List String × Value}
    (hs : e.statement? = some s) : Leads r cs (complete p s.2 (owner s.1)) := by
  cases e with
  | name n =>
    obtain rfl : (["name"], Value.string n) = s := by simpa [Entry.statement?] using hs
    exact AssignText.leads h hr (by simp [depthLimit]) fun _ hv => hv.leads _
  | property k v =>
    obtain rfl : (["properties", k], Value.string v) = s := by simpa [Entry.statement?] using hs
    exact AssignText.leads h hr (by simp [depthLimit]) fun _ hv => hv.leads _
  | properties ps =>
    obtain ⟨m, hm, rfl⟩ := Option.map_eq_some_iff.mp hs
    refine AssignText.leads h hr (by simp [depthLimit]) ?_
    intro ds hv
    refine hv.leads_table rfl hp ?_ hm
    intro q m m' ds hq hd p' _
    rw [← complete_inline hq p']
    exact hd.leads (readsKey_inline p' m)

/-- A header leads to a new section. -/
theorem HeaderText.leads {path : List String} {isArray : Bool} (h : HeaderText path isArray cs)
    (hl : path.length ≤ depthLimit) (p : Progress) :
    Leads (reading statement p) cs (reading lineEnd (newSection p path isArray)) := by
  have hclose : ∀ b, (reading (headerKey b ⟨path.reverse, false⟩) p).step .closeBracket =
      if b then reading (headerEnd path) p else reading lineEnd (newSection p path false) := by
    intro b
    simp [step, stepPlain, stepHeaderKey, KeyParts.path?]
  cases h with
  | @table before cs after hb hp ha =>
    have hpath : Leads (reading header p) (before ++ cs)
        (reading (headerKey false ⟨path.reverse, false⟩) p) := by
      have hr := readsPath_headerKey p false
      -- the first blank decides that the header has one bracket only
      cases before with
      | nil => exact (readsPath_header p).leads hp hl
      | cons c before =>
        obtain ⟨hc, hb⟩ := List.forall_mem_cons.mp hb
        have hrest := (hr.leads hp hl).skipped_append (hr.skips .none hb)
        rcases hc with rfl | rfl <;> exact .punctuation rfl hrest
    have hskip := (readsPath_headerKey p false).skips ⟨path.reverse, false⟩ ha
    refine .punctuation rfl ((hpath.append_skipped hskip).punctuated rfl ?_)
    rw [hclose]
    exact .nil _
  | @array before cs after hb hp ha =>
    have hr := readsPath_headerKey p true
    have hpath := ((hr.leads hp hl).skipped_append (hr.skips _ hb)).append_skipped (hr.skips _ ha)
    refine .punctuation rfl (.punctuation rfl (hpath.punctuated rfl ?_))
    rw [hclose]
    exact .punctuation rfl (.nil _)

/-- The inline table of a module leads to the next item of the array. -/
theorem Bracketed.leads_item {es : List Entry} (h : Bracketed EntryText '\x7b' '\x7d' es cs)
    (hp : p.stack.length + 1 < depthLimit) {items items' : List Value}
    (hes : addItem? items es = some items') :
    Leads (reading (.item items) p) cs (reading (itemNext items') p) := by
  obtain ⟨m, hm, rfl⟩ := Option.map_eq_some_iff.mp hes
  have htable : Leads (reading (.item items) p) cs
      (complete p (.table .inline m) (.array items)) := by
    refine h.leads_table rfl (by omega) ?_ hm
    intro e m m' ds he hd q hq
    obtain ⟨s, hs, hadd⟩ := Option.bind_eq_some_iff.mp he
    rw [← complete_inline hadd q]
    exact hd.leads (readsKey_inline q m) (by omega) hs
  exact htable

/-- A line leads from between two lines to its end. -/
theorem LineText.leads {l : Line} (h : LineText l cs) {p' : Progress} (hl : l.addTo? p = some p') :
    Leads p.betweenLines cs p'.afterLine := by
  have hkey := readsKey_statement { p with stack := [] }
  cases l with
  | header path isArray =>
    obtain ⟨hlen, rfl⟩ := by simpa [Line.addTo?] using hl
    exact HeaderText.leads h hlen _
  | entry e =>
    obtain ⟨s, hs, rfl⟩ := Option.map_eq_some_iff.mp hl
    exact EntryText.leads h hkey (by simp [depthLimit]) hs
  | property q =>
    obtain rfl : p.say ([q.1], .string q.2) = p' := by simpa [Line.addTo?] using hl
    exact PropertyText.leads h hkey
  | modules ms =>
    obtain ⟨items, hitems, rfl⟩ := Option.map_eq_some_iff.mp hl
    refine AssignText.leads h hkey (by simp [depthLimit]) ?_
    intro ds hv
    have hopen : (reading (value (.line ["module"])) { p with stack := [] }).step .openBracket =
        reading (.item []) { p with stack := [.line ["module"]] } := rfl
    exact hv.leads rfl rfl (readsItems_array _) hopen
      (fun _ _ _ _ hes hd => hd.leads_item (by simp [depthLimit]) hes) hitems

theorem Progress.skips_betweenLines (p : Progress) (hg : Gap cs) : Skips p.betweenLines cs :=
  skips_of_gap hg (fun _ => rfl) rfl

theorem Sequence.leads_lines {ls : List Line} {p' : Progress} (h : Sequence LineText '\n' Gap ls cs)
    (hl : ls.foldlM Line.addTo? p = some p') : Leads p.betweenLines cs p'.afterLine := by
  have hnewline : Lex.punctuation? '\n' = some .newline := rfl
  have hblank : ∀ (p : Progress) (c : Char), p.afterLine.step (.blank c) = p.afterLine :=
    fun _ _ => rfl
  have hnext : ∀ p : Progress, p.afterLine.step .newline = p.betweenLines := fun _ => rfl
  exact h.leads hnewline (fun p _ hg => p.skips_betweenLines hg) hblank hnext
    (fun _ _ _ _ hl h => h.leads hl) hl

/-- The lines of a document lead to its sections. -/
theorem LinesText.leads {ls : List Line} (h : LinesText ls cs) {p' : Progress}
    (hl : ls.foldlM Line.addTo? .initial = some p') :
    ∃ r, Leads Reading.start cs r ∧ r.sections? = some p'.sections := by
  cases h with
  | nil hg =>
    obtain rfl : Progress.initial = p' := by simpa using hl
    have hgap := (Leads.nil _).append_skipped (Progress.initial.skips_betweenLines hg)
    exact ⟨_, hgap, rfl⟩
  | lines h => exact ⟨_, h.leads_lines hl, rfl⟩
  | ended h hg =>
    have hgap := (Leads.nil p'.betweenLines).append_skipped (p'.skips_betweenLines hg)
    exact ⟨_, (h.leads_lines hl).punctuated rfl hgap, rfl⟩

end Lines

/-! ### Documents -/

/-- The text begins with a character other than a byte order mark. -/
def Unmarked (cs : List Char) : Prop := ∃ c, cs.head? = some c ∧ c ≠ '\uFEFF'

section Documents

variable {cs ds : List Char}

theorem Unmarked.append (h : Unmarked cs) (ds : List Char) : Unmarked (cs ++ ds) := by
  obtain ⟨c, hc, hne⟩ := h
  exact ⟨c, by rw [List.head?_append, hc]; rfl, hne⟩

theorem Gap.unmarked_append (h : Gap ds) (hc : Unmarked cs) : Unmarked (ds ++ cs) := by
  cases ds with
  | nil => exact hc
  | cons c ds =>
    refine ⟨c, rfl, ?_⟩
    rcases h c List.mem_cons_self with rfl | rfl | rfl <;> decide

theorem KeyText.unmarked {s : String} (h : KeyText s cs) : Unmarked cs := by
  cases h with
  | quoted h =>
    cases h
    exact ⟨'"', rfl, by decide⟩
  | bare hn h =>
    cases hs : s.toList with
    | nil => exact absurd (String.toList_eq_nil_iff.mp hs) hn
    | cons c r =>
      refine ⟨c, rfl, ?_⟩
      rintro rfl
      exact absurd (h _ (hs ▸ List.mem_cons_self)) (by decide)

theorem PathText.unmarked {path : List String} (h : PathText path cs) : Unmarked cs := by
  cases h with
  | key h => exact h.unmarked
  | dotted h => exact (h.unmarked.append _).append _

theorem AssignText.unmarked {path : List String} {value : List Char → Prop}
    (h : AssignText path value cs) : Unmarked cs := by
  obtain ⟨hp, -, -, -⟩ := h
  exact (hp.unmarked.append _).append _

theorem LineText.unmarked {l : Line} (h : LineText l cs) : Unmarked cs := by
  cases l with
  | header path isArray => cases h <;> exact ⟨'[', rfl, by decide⟩
  | entry e => cases e <;> exact AssignText.unmarked h
  | property q => exact AssignText.unmarked h
  | modules ms => exact AssignText.unmarked h

theorem Sequence.unmarked {ls : List Line} (h : Sequence LineText '\n' Gap ls cs) :
    Unmarked cs := by
  cases h with
  | last hb h _ => exact (hb.unmarked_append h.unmarked).append _
  | cons hb h _ _ => exact ((hb.unmarked_append h.unmarked).append _).append _

theorem LinesText.head?_ne {ls : List Line} (h : LinesText ls cs) : cs.head? ≠ some '\uFEFF' := by
  have hne : ∀ {cs}, Unmarked cs → cs.head? ≠ some '\uFEFF' := by
    rintro cs ⟨c, hc, hne⟩ hm
    exact hne (Option.some.inj (hc.symm.trans hm))
  cases h with
  | nil h =>
    intro hm
    exact absurd (h _ (List.mem_of_mem_head? hm)) (by decide)
  | lines h => exact hne h.unmarked
  | ended h _ => exact hne (h.unmarked.append _)

/-- What is read from a document are the tables of its sections. -/
theorem LinesText.parse?_eq {ls : List Line} {source : String} (h : LinesText ls source.toList)
    {p : Progress} (hl : ls.foldlM Line.addTo? .initial = some p) :
    parse? source = ofSections p.sections := by
  obtain ⟨r, ⟨ts, hts, rfl⟩, hsections⟩ := h.leads hl
  have htokens : tokens? source = some ts := by
    rw [tokens?]
    split
    · rename_i hs
      exact absurd (by rw [hs]; rfl) h.head?_ne
    · have hend := (hts []).tokens?_eq
      rwa [List.append_nil, List.reverse_reverse] at hend
  simp only [parse?, htokens, hsections, Option.bind_eq_bind, Option.bind_some]

end Documents

end CamelLint.Toml
