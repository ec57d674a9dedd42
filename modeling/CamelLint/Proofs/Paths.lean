import CamelLint.Config.Load
import CamelLint.Proofs.Tokens
import Mathlib

/-! Files by their names. The name of a file is the last part of its path, but for slashes
and single dots behind it, and the format is asked for by what follows the last dot of
the name. Said of the path as a whole: it ends in a stem, a dot and the extension, and
then a trail. A path that asks for no format is refused before anything is read. -/

namespace CamelLint.Format

/-- What may follow the name of a file: slashes, with at most single dots between them. -/
def IsTrail (trail : List Char) : Prop :=
  trail = [] ∨
    trail.head? = some '/' ∧ ∀ s, Text.IsSegment '/' s trail → s = [] ∨ s = ['.']

/-- A place in a path where a part may begin. -/
def EndsPart (before : List Char) : Prop := before = [] ∨ before.getLast? = some '/'

/-- The extension of the files of a format. -/
def extension : Format → String
  | xml => "xml"
  | toml => "toml"

/-- Letter by letter the same, but that a small letter may be a capital. -/
def EqUpToCase (s word : List Char) : Prop :=
  List.Forall₂ (fun c d => c = d ∨ c = d.toUpper) s word

/-- The path leads to a file of the format: its last part has a stem and the extension of the
format, in capitals or not. -/
def IsNamedBy (format : Format) (path : String) : Prop :=
  ∃ before stem e trail, path.toList = before ++ stem ++ '.' :: e ++ trail ∧ EndsPart before ∧
    stem ≠ [] ∧ '/' ∉ stem ∧ EqUpToCase e format.extension.toList ∧ IsTrail trail

/-! ### The name of a file -/

/-- A path begins with a part, and nothing is said after it. -/
theorem exists_segments_eq_cons_iff {s y : List Char} :
    (∃ b, Text.segments '/' y = s :: b ∧ ∀ t ∈ b, t = [] ∨ t = ['.']) ↔
      '/' ∉ s ∧ ∃ trail, y = s ++ trail ∧ IsTrail trail := by
  constructor
  · rintro ⟨b, hy, hb⟩
    have hs : '/' ∉ s := (Text.isSegment_of_mem (hy ▸ List.mem_cons_self)).1
    refine ⟨hs, ?_⟩
    by_cases hne : b = []
    · subst hne
      refine ⟨[], ?_, .inl rfl⟩
      rw [← Text.intercalate_segments '/' y, hy, List.intercalate_singleton, List.append_nil]
    · obtain ⟨u, v, rfl, hu, rfl⟩ :=
        (Text.segments_eq_append_iff (a := [s]) (List.cons_ne_nil s []) hne).mp hy
      have hus : u = s := by
        rw [← Text.intercalate_segments '/' u, hu, List.intercalate_singleton]
      refine ⟨'/' :: v, by rw [hus], .inr ⟨rfl, ?_⟩⟩
      intro t ht
      have hmem := Text.mem_segments_iff.mpr ht
      rw [← List.nil_append ('/' :: v), Text.segments_append_cons] at hmem
      rcases List.mem_append.mp hmem with h | h
      · exact .inl (List.mem_singleton.mp h)
      · exact hb t h
  · rintro ⟨hs, trail, rfl, rfl | ⟨hhead, htrail⟩⟩
    · exact ⟨[], by rw [List.append_nil, Text.segments_of_not_mem hs], by simp⟩
    · obtain ⟨v, rfl⟩ := List.head?_eq_some_iff.mp hhead
      refine ⟨Text.segments '/' v, ?_, ?_⟩
      · rw [Text.segments_append_cons, Text.segments_of_not_mem hs, List.singleton_append]
      · intro t ht
        exact htrail t ((Text.isSegment_of_mem ht).append_left [])

/-- The last part of a path that says something, and where it stands. -/
theorem exists_segments_eq_append_cons_iff {s text : List Char} :
    (∃ a b, Text.segments '/' text = a ++ s :: b ∧ ∀ t ∈ b, t = [] ∨ t = ['.']) ↔
      '/' ∉ s ∧ ∃ before trail, text = before ++ s ++ trail ∧ EndsPart before ∧ IsTrail trail := by
  constructor
  · rintro ⟨a, b, htext, hb⟩
    by_cases hne : a = []
    · subst hne
      obtain ⟨hs, trail, rfl, htrail⟩ := exists_segments_eq_cons_iff.mp ⟨b, htext, hb⟩
      exact ⟨hs, [], trail, rfl, .inl rfl, htrail⟩
    · obtain ⟨x, y, rfl, -, hy⟩ :=
        (Text.segments_eq_append_iff hne (List.cons_ne_nil s b)).mp htext
      obtain ⟨hs, trail, rfl, htrail⟩ := exists_segments_eq_cons_iff.mp ⟨b, hy, hb⟩
      exact ⟨hs, x ++ ['/'], trail, by simp, .inr List.getLast?_concat, htrail⟩
  · rintro ⟨hs, before, trail, rfl, hbefore, htrail⟩
    obtain ⟨b, hb, hplain⟩ := exists_segments_eq_cons_iff.mpr ⟨hs, trail, rfl, htrail⟩
    rcases hbefore with rfl | hbefore
    · exact ⟨[], b, hb, hplain⟩
    · obtain ⟨x, rfl⟩ := List.getLast?_eq_some_iff.mp hbefore
      refine ⟨Text.segments '/' x, b, ?_, hplain⟩
      have hcut : x ++ ['/'] ++ s ++ trail = x ++ '/' :: (s ++ trail) := by simp
      rw [hcut, Text.segments_append_cons, hb]

theorem getLast?_parts_eq_some_iff {parts : List (List Char)} {name : List Char} :
    (parts.filter fun s => s ≠ [] ∧ s ≠ ['.']).getLast? = some name ↔
      (name ≠ [] ∧ name ≠ ['.']) ∧
        ∃ a b, parts = a ++ name :: b ∧ ∀ t ∈ b, t = [] ∨ t = ['.'] := by
  rw [List.getLast?_filter, List.find?_eq_some_iff_append, decide_eq_true_eq]
  refine and_congr_right fun _ => ?_
  constructor
  · rintro ⟨a, b, hparts, ha⟩
    refine ⟨b.reverse, a.reverse, ?_, ?_⟩
    · rw [← List.reverse_reverse parts, hparts]
      simp
    · intro t ht
      simpa [or_iff_not_imp_left] using ha t (List.mem_reverse.mp ht)
  · rintro ⟨a, b, rfl, hb⟩
    refine ⟨b.reverse, a.reverse, by simp, ?_⟩
    intro t ht
    simpa [or_iff_not_imp_left] using hb t (List.mem_reverse.mp ht)

theorem fileName?_eq_some_iff {path : String} {name : List Char} :
    fileName? path = some name ↔
      ((name ≠ [] ∧ name ≠ ['.']) ∧ name ≠ ['.', '.']) ∧ '/' ∉ name ∧
        ∃ before trail, path.toList = before ++ name ++ trail ∧ EndsPart before ∧
          IsTrail trail := by
  have hlast : fileName? path = some name ↔
      ((Text.segments '/' path.toList).filter fun s => s ≠ [] ∧ s ≠ ['.']).getLast? = some name ∧
        name ≠ ['.', '.'] := by
    rw [fileName?]
    split
    · rename_i s hs
      rw [hs]
      split_ifs with hdots
      · simp only [Option.some.injEq, false_iff]
        rintro ⟨rfl, hname⟩
        exact hname hdots
      · simp only [Option.some.injEq]
        constructor
        · rintro rfl
          exact ⟨rfl, hdots⟩
        · exact And.left
    · rename_i hs
      rw [hs]
      simp
  rw [hlast, getLast?_parts_eq_some_iff, exists_segments_eq_append_cons_iff]
  constructor
  · rintro ⟨⟨hname, hplace⟩, hdots⟩
    exact ⟨⟨hname, hdots⟩, hplace⟩
  · rintro ⟨⟨hname, hdots⟩, hplace⟩
    exact ⟨⟨hname, hplace⟩, hdots⟩

/-! ### Extensions -/

theorem extension?_eq_some_iff {name e : List Char} :
    extension? name = some e ↔ '.' ∉ e ∧ ∃ stem, stem ≠ [] ∧ name = stem ++ '.' :: e := by
  rw [extension?, List.span_eq_takeWhile_dropWhile]
  constructor
  · intro h
    -- Read backwards, a name is its extension, a dot and its stem.
    have hname := List.takeWhile_append_dropWhile (p := (· ≠ '.')) (l := name.reverse)
    have hdot := List.head?_dropWhile_not (· ≠ '.') name.reverse
    have hfree : '.' ∉ name.reverse.takeWhile (· ≠ '.') := fun hm => by
      simpa using List.mem_takeWhile_imp hm
    generalize name.reverse.dropWhile (· ≠ '.') = rest at h hname hdot
    generalize name.reverse.takeWhile (· ≠ '.') = reversed at h hname hfree
    match rest with
    | [] | [_] => cases h
    | c :: d :: r =>
      obtain rfl : c = '.' := by simpa using hdot
      cases h
      refine ⟨by simpa using hfree, (d :: r).reverse, by simp, ?_⟩
      rw [← List.reverse_reverse name, ← hname]
      simp
  · rintro ⟨he, stem, hstem, rfl⟩
    have hfree : ∀ c ∈ e.reverse, decide (c ≠ '.') = true := by
      intro c hc
      rw [decide_eq_true_eq]
      rintro rfl
      exact he (List.mem_reverse.mp hc)
    have hrev : (stem ++ '.' :: e).reverse = e.reverse ++ '.' :: stem.reverse := by simp
    rw [hrev, List.takeWhile_append_of_pos hfree, List.dropWhile_append_of_pos hfree]
    cases hs : stem.reverse with
    | nil => exact absurd (List.reverse_eq_nil_iff.mp hs) hstem
    | cons c r => simp

theorem toLower_eq_iff {c d : Char} (hd : d.isUpper = false) :
    c.toLower = d ↔ c = d ∨ c = d.toUpper := by
  have hlower : d.toLower = d := Char.toLower_eq_of_not_isUpper (by simp [hd])
  constructor
  · rintro rfl
    by_cases hc : c.isUpper = true
    · have hupper := Char.toUpper_eq_of_not_isLower (Char.not_isLower_of_isUpper hc)
      exact .inr (by rw [Char.toUpper_toLower_eq_toUpper, hupper])
    · exact .inl (Char.toLower_eq_of_not_isUpper hc).symm
  · rintro (rfl | rfl)
    · exact hlower
    · rw [Char.toLower_toUpper_eq_toLower, hlower]

theorem map_toLower_eq_iff {e word : List Char} (h : ∀ d ∈ word, d.isUpper = false) :
    e.map Char.toLower = word ↔ EqUpToCase e word := by
  induction word generalizing e with
  | nil => simp [EqUpToCase]
  | cons d r ih =>
    obtain ⟨hd, hr⟩ := List.forall_mem_cons.mp h
    cases e with
    | nil => simp [EqUpToCase]
    | cons c e =>
      rw [List.map_cons, List.cons.injEq, toLower_eq_iff hd, ih hr, EqUpToCase, EqUpToCase,
        List.forall₂_cons]

/-- Extensions are written in small letters. -/
theorem not_isUpper_of_mem_extension (format : Format) :
    ∀ d ∈ format.extension.toList, d.isUpper = false := by
  cases format <;> simp [extension]

/-! ### The format of a path -/

/-- The format that an extension asks for. -/
theorem ofExtension_eq_some_iff {e : List Char} {format : Format} :
    (if e.map Char.toLower = "xml".toList then some xml
      else if e.map Char.toLower = "toml".toList then some toml else none) = some format ↔
      EqUpToCase e format.extension.toList := by
  rw [← map_toLower_eq_iff format.not_isUpper_of_mem_extension]
  split_ifs with hx ht
  · rw [hx]
    cases format <;> simp [extension]
  · rw [ht]
    cases format <;> simp [extension]
  · cases format with
    | xml => exact ⟨nofun, fun h => absurd h hx⟩
    | toml => exact ⟨nofun, fun h => absurd h ht⟩

theorem EqUpToCase.not_mem {e : List Char} {format : Format}
    (h : EqUpToCase e format.extension.toList) : '/' ∉ e ∧ '.' ∉ e := by
  rw [← map_toLower_eq_iff format.not_isUpper_of_mem_extension] at h
  have hmem : ∀ c ∈ e, c.toLower ∈ format.extension.toList := fun c hc =>
    h ▸ List.mem_map_of_mem hc
  refine ⟨fun hs => ?_, fun hs => ?_⟩
  · have := hmem '/' hs
    cases format <;> simp [extension] at this
  · have := hmem '.' hs
    cases format <;> simp [extension] at this

theorem EqUpToCase.length_pos {e : List Char} {format : Format}
    (h : EqUpToCase e format.extension.toList) : 0 < e.length := by
  rw [List.Forall₂.length_eq h]
  cases format <;> simp [extension]

theorem ofPath?_eq_some_iff {path : String} {format : Format} :
    ofPath? path = some format ↔ format.IsNamedBy path := by
  have hextension : ofPath? path = some format ↔
      ∃ e, (fileName? path).bind extension? = some e ∧
        EqUpToCase e format.extension.toList := by
    rw [ofPath?]
    cases (fileName? path).bind extension? with
    | none => simp
    | some e => simpa using ofExtension_eq_some_iff
  simp only [hextension, Option.bind_eq_some_iff, fileName?_eq_some_iff, extension?_eq_some_iff]
  constructor
  · rintro ⟨e, ⟨name, ⟨-, hslash, before, trail, hpath, hb, ht⟩, -, stem, hstem, rfl⟩, he⟩
    refine ⟨before, stem, e, trail, by simpa using hpath, hb, hstem, ?_, he, ht⟩
    exact fun hm => hslash (List.mem_append_left _ hm)
  · rintro ⟨before, stem, e, trail, hpath, hb, hstem, hslash, he, ht⟩
    -- A name with a stem and an extension is longer than two dots.
    have hlength : 2 < (stem ++ '.' :: e).length := by
      have := List.length_pos_iff.mpr hstem
      have := he.length_pos
      simp only [List.length_append, List.length_cons]
      omega
    have hname : ∀ s : List Char, s.length ≤ 2 → stem ++ '.' :: e ≠ s := by
      rintro s hs rfl
      omega
    refine ⟨e, ⟨stem ++ '.' :: e, ⟨⟨⟨hname _ ?_, hname _ ?_⟩, hname _ ?_⟩, ?_, before, trail,
      by simpa using hpath, hb, ht⟩, he.not_mem.2, stem, hstem, rfl⟩, he⟩
    · decide
    · decide
    · decide
    · simp [hslash, he.not_mem.1]

end CamelLint.Format

namespace CamelLint.Config

open Format (ofPath?_eq_some_iff)

/-- A file is loaded by its name. A path that asks for no format is refused as it is, whatever
could be read; of one that asks for a format, a failure to read it is reported with the path and
the cause, and else its text is parsed in that format. No other file counts. -/
theorem load_by_name (path : String) :
    ((∀ format : Format, ¬ format.IsNamedBy path) → ∀ read,
      load read path = .error (.unsupportedFormat path)) ∧
    (∀ format : Format, format.IsNamedBy path → ∀ read,
      (∀ cause, read path = .error cause → load read path = .error (.unreadable path cause)) ∧
      ∀ text, read path = .ok text → load read path = parse format text) ∧
    (∀ f g : Format, f.IsNamedBy path → g.IsNamedBy path → f = g) ∧
    ∀ read read', read path = read' path → load read path = load read' path := by
  refine ⟨?_, ?_, ?_, ?_⟩
  · intro h read
    have hnone : Format.ofPath? path = none := by
      rw [Option.eq_none_iff_forall_ne_some]
      exact fun format hf => h format (ofPath?_eq_some_iff.mp hf)
    rw [load, hnone]
  · intro format h read
    have hsome := ofPath?_eq_some_iff.mpr h
    refine ⟨fun cause hread => ?_, fun text hread => ?_⟩
    · rw [load, hsome]
      simp only [hread]
    · rw [load, hsome]
      simp only [hread]
  · intro f g hf hg
    have h := (ofPath?_eq_some_iff.mpr hf).symm.trans (ofPath?_eq_some_iff.mpr hg)
    exact Option.some.inj h
  · intro read read' h
    simp only [load, h]

/-- A path through a directory with the extension of the other format, to a file with several
dots in its name, and with a trail. -/
def oddPath : String := "d.toml/..A.b.XmL//./"

/-- A file whose name is nothing but an extension has none. -/
theorem load_by_name_odd :
    (∀ format : Format, ¬ format.IsNamedBy "a/.xml") ∧
    load (fun _ => .ok "") "a/.xml" = .error (.unsupportedFormat "a/.xml") ∧
    Format.xml.IsNamedBy oddPath ∧
    load (fun _ => .error (.other "Permission denied (os error 13)")) oddPath =
      .error (.unreadable oddPath (.other "Permission denied (os error 13)")) ∧
    load (fun _ => .ok "<m name='A'/>") oddPath = parse .xml "<m name='A'/>" := by
  have hhidden : ∀ format : Format, ¬ format.IsNamedBy "a/.xml" := by
    intro format
    have hnone : Format.ofPath? "a/.xml" = none := by decide +kernel
    rw [← ofPath?_eq_some_iff, hnone]
    nofun
  have hodd : Format.xml.IsNamedBy oddPath := ofPath?_eq_some_iff.mp (by decide +kernel)
  have hload := (load_by_name oddPath).2.1 .xml hodd
  exact ⟨hhidden, (load_by_name "a/.xml").1 hhidden _, hodd, (hload _).1 _ rfl, (hload _).2 _ rfl⟩

end CamelLint.Config
