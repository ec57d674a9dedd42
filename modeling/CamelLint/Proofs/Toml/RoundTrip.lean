import CamelLint.Config.Load
import CamelLint.Proofs.Toml.Tables

/-! Module lists written and read back. Each module may be written in a form of its own,
or all of them in one array; strings are escaped where they must be, and may be
elsewhere. However that is done, exactly the list is read. -/

namespace CamelLint.Toml

open Xml (IsDigitOf Numeral)

/-! ### One way of writing -/

/-- The digits of an escape for a number below 256. -/
def codeDigits (n : Nat) : List Char := ['0', '0', Nat.digitChar (n / 16), Nat.digitChar (n % 16)]

/-- Escapes the quote, the backslash and controls, and no other characters. -/
def escapeChar (c : Char) : List Char :=
  if c = '"' ∨ c = '\\' then ['\\', c]
  else if isControl c then '\\' :: 'u' :: codeDigits c.toNat
  else [c]

def writeString (s : String) : List Char := '"' :: (s.toList.flatMap escapeChar ++ ['"'])

/-- Quotes a key only where it must be. -/
def writeKey (k : String) : List Char :=
  if k ≠ "" ∧ k.toList.all KeyParts.isKeyChar then k.toList else writeString k

section Lists

variable {α : Type} (write : α → List Char)

def writeItems (separator : Char) (as : List α) : List Char :=
  [separator].intercalate (as.map write)

def writeBracketed (opening closing : Char) (as : List α) : List Char :=
  opening :: (writeItems write ',' as ++ [closing])

theorem writeItems_singleton (separator : Char) (a : α) :
    writeItems write separator [a] = write a := by
  simp [writeItems, List.intercalate]

theorem writeItems_cons_cons (separator : Char) (a b : α) (r : List α) :
    writeItems write separator (a :: b :: r) =
      write a ++ separator :: writeItems write separator (b :: r) := by
  simp [writeItems, List.intercalate]

end Lists

def writePath (path : List String) : List Char := writeItems writeKey '.' path

def writeAssign (path : List String) (value : List Char) : List Char :=
  writePath path ++ " = ".toList ++ value

def writeProperty (q : String × String) : List Char := writeAssign [q.1] (writeString q.2)

def writeEntry : Entry → List Char
  | .name s => writeAssign ["name"] (writeString s)
  | .property k v => writeAssign ["properties", k] (writeString v)
  | .properties ps => writeAssign ["properties"] (writeBracketed writeProperty '\x7b' '\x7d' ps)

def writeLine : Line → List Char
  | .header path false => "[".toList ++ writePath path ++ "]".toList
  | .header path true => "[[".toList ++ writePath path ++ "]]".toList
  | .entry e => writeEntry e
  | .property q => writeProperty q
  | .modules ms =>
    writeAssign ["module"]
      (writeBracketed (writeBracketed writeEntry '\x7b' '\x7d') '[' ']' ms)

/-- The form of the properties of a module. -/
inductive Form where
  | table
  | dotted
  | inline
  deriving DecidableEq, Repr

def Form.lines (f : Form) (m : Module) : List Line :=
  .header ["module"] true :: .entry (.name m.name) ::
    match f with
    | table => .header ["module", "properties"] false :: m.properties.map .property
    | dotted => m.properties.map fun q => .entry (.property q.1 q.2)
    | inline => [.entry (.properties m.properties)]

/-- Writes each module in the form that comes with it. -/
def writeBlocks (bs : List (Form × Module)) : List Char :=
  writeItems writeLine '\n' (bs.map fun b => b.1.lines b.2).flatten

/-- Writes all modules in one array. -/
def writeArray (ms : List Module) : List Char :=
  writeLine (.modules (ms.map fun m => [.name m.name, .properties m.properties]))

/-! ### What is written is in the grammar -/

theorem isDigitOf_digitChar {v : Nat} (h : v < 16) : IsDigitOf 16 (Nat.digitChar v) v := by
  revert v
  decide

theorem numeral_codeDigits {n : Nat} (h : n < 256) : Numeral 16 (codeDigits n) n := by
  have hzero : IsDigitOf 16 '0' 0 := by decide
  have hhigh : IsDigitOf 16 (Nat.digitChar (n / 16)) (n / 16) := isDigitOf_digitChar (by omega)
  have hlow : IsDigitOf 16 (Nat.digitChar (n % 16)) (n % 16) := isDigitOf_digitChar (by omega)
  have hn : 16 * (16 * (16 * 0 + 0) + n / 16) + n % 16 = n := by omega
  have hnumeral := ((Numeral.digit hzero).snoc hzero |>.snoc hhigh).snoc hlow
  rwa [hn] at hnumeral

theorem escapes_flatMap (s : List Char) : Escapes s (s.flatMap escapeChar) := by
  induction s with
  | nil => exact .nil
  | cons c s ih =>
    rw [List.flatMap_cons, escapeChar]
    split_ifs with hmark hcontrol
    · rcases hmark with rfl | rfl
      · exact .letter (by decide) ih
      · exact .letter (by decide) ih
    · have hn : c.toNat < 256 := by
        simp only [isControl, Bool.or_eq_true, decide_eq_true_eq] at hcontrol
        omega
      exact .code (by decide : ('u', 4) ∈ codeEscapes) (numeral_codeDigits hn) ih
    · rw [not_or] at hmark
      exact .literal hmark.1 hmark.2 (.inr (by simpa using hcontrol)) ih

theorem stringText_writeString (s : String) : StringText s (writeString s) :=
  .mk (escapes_flatMap s.toList)

theorem keyText_writeKey (k : String) : KeyText k (writeKey k) := by
  rw [writeKey]
  split_ifs with h
  · exact .bare h.1 (List.all_eq_true.mp h.2)
  · exact .quoted (stringText_writeString k)

theorem blanks_none : Blanks [] := by decide

theorem pathText_writePath (k : String) (path : List String) :
    PathText (k :: path) (writePath (k :: path)) := by
  induction path generalizing k with
  | nil =>
    rw [writePath, writeItems_singleton]
    exact .key (keyText_writeKey k)
  | cons l path ih =>
    have hpath := PathText.dotted (keyText_writeKey k) blanks_none blanks_none (ih l)
    rwa [List.append_nil, List.nil_append] at hpath

theorem assignText_writeAssign (k : String) (path : List String) {value : List Char → Prop}
    {cs : List Char} (h : value cs) :
    AssignText (k :: path) value (writeAssign (k :: path) cs) := by
  have hblank : Blanks [' '] := by decide
  have hassign := AssignText.mk (pathText_writePath k path) hblank hblank h
  rw [List.append_assoc] at hassign
  rw [writeAssign, List.append_assoc]
  exact hassign

theorem propertyText_writeProperty (q : String × String) : PropertyText q (writeProperty q) :=
  assignText_writeAssign q.1 [] (stringText_writeString q.2)

section Lists

variable {α : Type} {item : α → List Char → Prop} {write : α → List Char}

theorem Sequence.single {separator : Char} {gap : List Char → Prop} (hg : gap []) {a : α}
    {cs : List Char} (h : item a cs) : Sequence item separator gap [a] cs := by
  have hlast : Sequence item separator gap [a] ([] ++ cs ++ []) := .last hg h blanks_none
  rwa [List.append_nil] at hlast

theorem Sequence.followed {separator : Char} {gap : List Char → Prop} (hg : gap []) {a : α}
    {as : List α} {cs ds : List Char} (h : item a cs) (hr : Sequence item separator gap as ds) :
    Sequence item separator gap (a :: as) (cs ++ separator :: ds) := by
  have hcons := Sequence.cons hg h blanks_none hr
  rwa [List.append_nil] at hcons

theorem sequence_writeItems {separator : Char} {gap : List Char → Prop} (hg : gap []) {a : α}
    {as : List α} (h : ∀ b ∈ a :: as, item b (write b)) :
    Sequence item separator gap (a :: as) (writeItems write separator (a :: as)) := by
  induction as generalizing a with
  | nil =>
    rw [writeItems_singleton]
    exact .single hg (h a List.mem_cons_self)
  | cons b as ih =>
    obtain ⟨ha, has⟩ := List.forall_mem_cons.mp h
    rw [writeItems_cons_cons]
    exact .followed hg ha (ih has)

theorem bracketed_writeBracketed {opening closing : Char} {as : List α}
    (h : ∀ a ∈ as, item a (write a)) :
    Bracketed item opening closing as (writeBracketed write opening closing as) := by
  cases as with
  | nil => exact .nil blanks_none
  | cons a as => exact .items (sequence_writeItems blanks_none h)

end Lists

theorem entryText_writeEntry (e : Entry) : EntryText e (writeEntry e) := by
  cases e with
  | name s => exact assignText_writeAssign _ _ (stringText_writeString s)
  | property k v => exact assignText_writeAssign _ _ (stringText_writeString v)
  | properties ps =>
    exact assignText_writeAssign _ _
      (bracketed_writeBracketed fun q _ => propertyText_writeProperty q)

theorem headerText_writeLine (k : String) (path : List String) (isArray : Bool) :
    HeaderText (k :: path) isArray (writeLine (.header (k :: path) isArray)) := by
  have hpath := pathText_writePath k path
  cases isArray with
  | false =>
    have h := HeaderText.table blanks_none hpath blanks_none
    rwa [List.append_nil] at h
  | true =>
    have h := HeaderText.array blanks_none hpath blanks_none
    rwa [List.append_nil] at h

/-- A line whose header, if it is one, has a path. -/
theorem lineText_writeLine {l : Line} (h : ∀ isArray, l ≠ .header [] isArray) :
    LineText l (writeLine l) := by
  cases l with
  | header path isArray =>
    cases path with
    | nil => exact absurd rfl (h isArray)
    | cons k path => exact headerText_writeLine k path isArray
  | entry e => exact entryText_writeEntry e
  | property q => exact propertyText_writeProperty q
  | modules ms =>
    have hitem : ∀ es : List Entry, Bracketed EntryText '\x7b' '\x7d' es
        (writeBracketed writeEntry '\x7b' '\x7d' es) :=
      fun es => bracketed_writeBracketed fun e _ => entryText_writeEntry e
    exact assignText_writeAssign _ _ (bracketed_writeBracketed fun es _ => hitem es)

theorem linesText_writeItems {ls : List Line} (h : ∀ l ∈ ls, LineText l (writeLine l)) :
    LinesText ls (writeItems writeLine '\n' ls) := by
  have hgap : Gap [] := by decide
  cases ls with
  | nil => exact .nil hgap
  | cons l ls => exact .lines (sequence_writeItems hgap h)

theorem Form.block_lines (f : Form) (m : Module) : Block m (f.lines m) := by
  cases f with
  | table => exact .table .rfl
  | dotted =>
    have h := Block.entries (.dotted (m := m) .rfl)
    rwa [List.map_cons, List.map_map] at h
  | inline => exact .entries (.inline .rfl (.inl rfl))

theorem Form.lineText_of_mem {f : Form} {m : Module} {l : Line} (h : l ∈ f.lines m) :
    LineText l (writeLine l) := by
  apply lineText_writeLine
  rintro isArray rfl
  cases f <;> simp [lines] at h

theorem writes_writeBlocks (bs : List (Form × Module)) :
    Writes (bs.map (·.2)) (writeBlocks bs) := by
  have hblocks : List.Forall₂ Block (bs.map (·.2)) (bs.map fun b => b.1.lines b.2) := by
    rw [List.forall₂_map_left_iff, List.forall₂_map_right_iff, List.forall₂_same]
    exact fun b _ => b.1.block_lines b.2
  refine .blocks hblocks (linesText_writeItems ?_)
  intro l hl
  obtain ⟨ls, hls, hl⟩ := List.mem_flatten.mp hl
  obtain ⟨b, -, rfl⟩ := List.mem_map.mp hls
  exact Form.lineText_of_mem hl

example : String.ofList (writeBlocks [(.dotted, ⟨"a\n", [("", "\""), ("k", "é")]⟩)]) =
    "[[module]]\nname = \"a\\u000a\"\nproperties.\"\" = \"\\\"\"\nproperties.k = \"é\"" := by
  decide +kernel

theorem writes_writeArray (ms : List Module) : Writes ms (writeArray ms) := by
  have hgives : List.Forall₂ Gives ms
      (ms.map fun m => [.name m.name, .properties m.properties]) := by
    rw [List.forall₂_map_right_iff, List.forall₂_same]
    exact fun m _ => .inline .rfl (.inl rfl)
  refine .array hgives ?_
  rw [writeArray, ← writeItems_singleton writeLine '\n']
  refine linesText_writeItems (List.forall_mem_singleton.mpr ?_)
  exact lineText_writeLine fun _ => Line.noConfusion

example : String.ofList (writeArray [⟨"a", [("k k", "1"), ("l", "")]⟩, ⟨"b", []⟩]) =
    "module = [\x7bname = \"a\",properties = \x7b\"k k\" = \"1\",l = \"\"\x7d\x7d," ++
      "\x7bname = \"b\",properties = \x7b\x7d\x7d]" := by
  decide +kernel

/-! ### Reading back -/

theorem Writes.parse_eq {ms : List Module} {source : String} (h : Writes ms source.toList)
    (hm : ∀ m ∈ ms, m.properties.Ascending) : Config.parse .toml source = .ok ⟨ms⟩ := by
  have hread : ∃ root, parse? source = some root ∧ modulesOf root = .ok ms := by
    cases h with
    | blocks hb h =>
      have hstart : Builds .initial [] := rfl
      obtain ⟨p, vs, hrun, hbuilds, htells⟩ := blocks_build hb hm hstart
      refine ⟨rootOf vs, ?_, modulesOf_rootOf htells⟩
      rw [h.parse?_eq hrun]
      exact hbuilds
    | @array es hg h =>
      obtain ⟨vs, hitems, htells⟩ := foldlM_items hg hm []
      have hrun : [Line.modules es].foldlM Line.addTo? .initial =
          some (Progress.initial.say (["module"], .array vs false)) := by
        simp [Line.addTo?, hitems]
      refine ⟨[("module", .array vs false)], ?_, modulesOf_array htells false⟩
      rw [h.parse?_eq hrun]
      rfl
  obtain ⟨root, hroot, hmodules⟩ := hread
  simp [Config.parse, parseConfig, hroot, hmodules, Except.mapError]

/-- Every list can be written, in any forms; and from each of its texts exactly the list is
read. -/
theorem parse_of_writes (ms : List Module) (hm : ∀ m ∈ ms, m.properties.Ascending) :
    (∀ bs : List (Form × Module), bs.map (·.2) = ms → Writes ms (writeBlocks bs)) ∧
      Writes ms (writeArray ms) ∧
      ∀ source : String, Writes ms source.toList → Config.parse .toml source = .ok ⟨ms⟩ := by
  refine ⟨?_, writes_writeArray ms, fun source h => h.parse_eq hm⟩
  rintro bs rfl
  exact writes_writeBlocks bs

def mixedModules : List Module :=
  [⟨"a\"b", [("", "x\ty"), ("k", "é")]⟩, ⟨"é", [("", "2"), ("z", "1")]⟩, ⟨"", [("k", "v")]⟩,
   ⟨"bare", []⟩]

/-- A text in which each module has a form of its own, with the keys in any order. -/
def mixedText : String :=
  "[[module]]\nproperties.k = \"\\u00E9\"\nname = \"a\\\"b\"\n\"properties\" . \"\" = \"x\ty\"\n" ++
  "\n [[ module ]]\nname=\"é\"\nproperties = \x7bz = \"1\", \"\" = \"2\"\x7d\n" ++
  "[[module]]\nname = \"\"\n[module.properties]\n\"k\" = \"v\"\n" ++
  "[[module]]\nname = \"bare\"\n"

theorem writes_mixedText : Writes mixedModules mixedText.toList := by
  have hblank : Blanks [' '] := by decide
  have hgap : Gap [] := by decide
  have hempty : Gap ['\n', ' '] := by decide
  have hzero : IsDigitOf 16 '0' 0 := by decide
  have hnumeral : Numeral 16 "00E9".toList 'é'.toNat :=
    .snoc (.snoc (.snoc (.digit hzero) hzero) (by decide : IsDigitOf 16 'E' 14))
      (by decide : IsDigitOf 16 '9' 9)
  have hcode : StringText "é" ('"' :: ("\\u00E9".toList ++ ['"'])) :=
    .mk (.code (by decide : ('u', 4) ∈ codeEscapes) hnumeral .nil)
  have htab : StringText "x\ty" ('"' :: ("x\ty".toList ++ ['"'])) :=
    .mk (.literal (by decide) (by decide) (by decide) (.literal (by decide) (by decide) (by decide)
      (.literal (by decide) (by decide) (by decide) .nil)))
  have hquoted : ∀ k, KeyText k (writeString k) := fun k => .quoted (stringText_writeString k)
  have hheader : LineText (.header ["module"] true) _ := headerText_writeLine "module" [] true
  have hname : ∀ s, LineText (.entry (.name s)) _ := fun s => entryText_writeEntry (.name s)
  -- the first module, by dotted keys on both sides of the name
  have hfirst : Gives ⟨"a\"b", [("", "x\ty"), ("k", "é")]⟩
      [.property "k" "é", .name "a\"b", .property "" "x\ty"] := .dotted (by decide)
  have hk : LineText (.entry (.property "k" "é")) _ :=
    AssignText.mk (pathText_writePath "properties" ["k"]) hblank hblank hcode
  have hnone : LineText (.entry (.property "" "x\ty")) _ :=
    AssignText.mk (.dotted (hquoted "properties") hblank hblank (.key (hquoted ""))) hblank hblank
      htab
  -- the second, after an empty line and with an inline table
  have hsecond : Gives ⟨"é", [("", "2"), ("z", "1")]⟩
      [.name "é", .properties [("z", "1"), ("", "2")]] := .inline (.swap _ _ _) (.inl rfl)
  have hspaced : LineText (.header ["module"] true) _ :=
    HeaderText.array hblank (.key (keyText_writeKey "module")) hblank
  have htight : LineText (.entry (.name "é")) _ :=
    AssignText.mk (pathText_writePath "name" []) blanks_none blanks_none
      (stringText_writeString "é")
  have hinline : LineText (.entry (.properties [("z", "1"), ("", "2")])) _ :=
    AssignText.mk (pathText_writePath "properties" []) hblank hblank
      (.items (.followed blanks_none (propertyText_writeProperty ("z", "1"))
        (.last hblank (propertyText_writeProperty ("", "2")) blanks_none)))
  -- the third with a table of its own, the last without properties
  have htable : LineText (.header ["module", "properties"] false) _ :=
    headerText_writeLine "module" ["properties"] false
  have hv : LineText (.property ("k", "v")) _ :=
    AssignText.mk (.key (hquoted "k")) hblank hblank (stringText_writeString "v")
  have hlast : Gives ⟨"bare", []⟩ [.name "bare"] := .dotted .rfl
  have hblocks : List.Forall₂ Block mixedModules _ :=
    .cons (.entries hfirst) (.cons (.entries hsecond) (.cons (.table .rfl)
      (.cons (.entries hlast) .nil)))
  have hlines := LinesText.ended (.followed hgap hheader (.followed hgap hk
    (.followed hgap (hname "a\"b") (.followed hgap hnone (.cons hempty hspaced blanks_none
    (.followed hgap htight (.followed hgap hinline (.followed hgap hheader
    (.followed hgap (hname "") (.followed hgap htable (.followed hgap hv
    (.followed hgap hheader (.single hgap (hname "bare")))))))))))))) hgap
  exact cast (congrArg (Writes mixedModules) (by decide +kernel)) (Writes.blocks hblocks hlines)

theorem parse_of_writes_mixed : Writes mixedModules mixedText.toList ∧
    Config.parse .toml mixedText = .ok ⟨mixedModules⟩ :=
  ⟨writes_mixedText, (parse_of_writes mixedModules (by decide)).2.2 mixedText writes_mixedText⟩

end CamelLint.Toml
