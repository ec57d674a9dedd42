import CamelLint.Declaration
import Mathlib.Tactic.SplitIfs

/-! Token lists. The segments of a text are its maximal stretches without the
separator, trimming takes off exactly the blanks at both ends, and the kinds that a
token list gives are the ones whose token is what some segment trims down to. -/

namespace CamelLint.Text

/-! ### Segments -/

/-- A maximal stretch of the text that is free of the separator. -/
def IsSegment (separator : Char) (s text : List Char) : Prop :=
  separator ∉ s ∧ ∃ before after, text = before ++ s ++ after ∧
    (before = [] ∨ before.getLast? = some separator) ∧
    (after = [] ∨ after.head? = some separator)

theorem segments_of_not_mem {separator : Char} {s : List Char} (h : separator ∉ s) :
    segments separator s = [s] := by
  induction s with
  | nil => rfl
  | cons c r ih =>
    rw [List.mem_cons, not_or] at h
    rw [segments, if_neg (Ne.symm h.1), ih h.2]

/-- Everything about segments follows from this: a separator ends one and begins another. -/
theorem segments_append_cons (separator : Char) (x y : List Char) :
    segments separator (x ++ separator :: y) = segments separator x ++ segments separator y := by
  induction x with
  | nil => simp [segments]
  | cons c r ih =>
    rw [List.cons_append, segments, segments, ih]
    split_ifs with h
    · rfl
    · cases hs : segments separator r with
      | nil => exact absurd hs (segments_ne_nil separator r)
      | cons a l => rfl

theorem IsSegment.mem {separator : Char} {s text : List Char} (h : IsSegment separator s text) :
    s ∈ segments separator text := by
  obtain ⟨hs, before, after, rfl, hb, ha⟩ := h
  have hone : s ∈ segments separator (s ++ after) := by
    rcases ha with rfl | ha
    · rw [List.append_nil, segments_of_not_mem hs]
      exact List.mem_singleton_self s
    · obtain ⟨r, rfl⟩ := List.head?_eq_some_iff.mp ha
      rw [segments_append_cons, segments_of_not_mem hs]
      exact List.mem_cons_self
  rcases hb with rfl | hb
  · simpa using hone
  · obtain ⟨r, rfl⟩ := List.getLast?_eq_some_iff.mp hb
    have hsplit : r ++ [separator] ++ s ++ after = r ++ separator :: (s ++ after) := by simp
    rw [hsplit, segments_append_cons]
    exact List.mem_append_right _ hone

/-- Segments behind a separator are segments of the whole text. -/
theorem IsSegment.append_left {separator : Char} {s y : List Char} (x : List Char)
    (h : IsSegment separator s y) : IsSegment separator s (x ++ separator :: y) := by
  obtain ⟨hs, before, after, rfl, hb, ha⟩ := h
  refine ⟨hs, x ++ separator :: before, after, by simp, .inr ?_, ha⟩
  rcases hb with rfl | hb
  · simp
  · obtain ⟨r, rfl⟩ := List.getLast?_eq_some_iff.mp hb
    have hsplit : x ++ separator :: (r ++ [separator]) = (x ++ separator :: r) ++ [separator] := by
      simp
    rw [hsplit, List.getLast?_concat]

theorem isSegment_of_mem {separator : Char} {s text : List Char}
    (h : s ∈ segments separator text) : IsSegment separator s text := by
  by_cases hm : separator ∈ text
  · -- the text up to its first separator is one segment, the others come from the rest
    obtain ⟨x, y, rfl, hx⟩ := List.eq_append_cons_of_mem hm
    rw [segments_append_cons, segments_of_not_mem hx, List.singleton_append, List.mem_cons] at h
    rcases h with rfl | h
    · exact ⟨hx, [], separator :: y, by simp, .inl rfl, .inr rfl⟩
    · exact (isSegment_of_mem h).append_left x
  · rw [segments_of_not_mem hm, List.mem_singleton] at h
    subst h
    exact ⟨hm, [], [], by simp, .inl rfl, .inl rfl⟩
termination_by text.length
decreasing_by
  subst_vars
  simp only [List.length_append, List.length_cons]
  omega

theorem mem_segments_iff {separator : Char} {s text : List Char} :
    s ∈ segments separator text ↔ IsSegment separator s text :=
  ⟨isSegment_of_mem, IsSegment.mem⟩

/-- Stretches without the separator are the segments of what they are joined to. -/
theorem segments_intercalate {separator : Char} {ss : List (List Char)} (hne : ss ≠ [])
    (h : ∀ s ∈ ss, separator ∉ s) : segments separator ([separator].intercalate ss) = ss := by
  induction ss with
  | nil => exact absurd rfl hne
  | cons s r ih =>
    obtain ⟨hs, hr⟩ := List.forall_mem_cons.mp h
    cases r with
    | nil => rw [List.intercalate_singleton, segments_of_not_mem hs]
    | cons t r =>
      rw [List.intercalate_cons_cons, List.append_assoc, List.singleton_append,
        segments_append_cons, segments_of_not_mem hs, ih (by simp) hr, List.singleton_append]

/-- A cut between segments is a separator in the text. -/
theorem segments_eq_append_iff {separator : Char} {text : List Char} {a b : List (List Char)}
    (ha : a ≠ []) (hb : b ≠ []) :
    segments separator text = a ++ b ↔
      ∃ x y, text = x ++ separator :: y ∧ segments separator x = a ∧ segments separator y = b := by
  constructor
  · intro h
    have hfree : ∀ s ∈ a ++ b, separator ∉ s := fun s hs => (isSegment_of_mem (h ▸ hs)).1
    have hx := segments_intercalate ha fun s hs => hfree s (List.mem_append_left b hs)
    have hy := segments_intercalate hb fun s hs => hfree s (List.mem_append_right a hs)
    refine ⟨[separator].intercalate a, [separator].intercalate b, ?_, hx, hy⟩
    -- texts with the same segments are the same
    rw [← intercalate_segments separator text, h, ← intercalate_segments separator (_ ++ _),
      segments_append_cons, hx, hy]
  · rintro ⟨x, y, rfl, rfl, rfl⟩
    exact segments_append_cons separator x y

/-! ### Trimming -/

/-- What is left of a text without the blanks at both its ends. -/
def TrimsTo (s core : List Char) : Prop :=
  (∃ left right, s = left ++ core ++ right ∧
    (∀ c ∈ left, isBlank c = true) ∧ ∀ c ∈ right, isBlank c = true) ∧
  (∀ c ∈ core.head?, isBlank c = false) ∧ ∀ c ∈ core.getLast?, isBlank c = false

/-- Blanks in front are dropped, up to a text that begins with none. -/
theorem trimStart_append {left core : List Char} (hl : ∀ c ∈ left, isBlank c = true)
    (hc : ∀ c ∈ core.head?, isBlank c = false) : trimStart (left ++ core) = core := by
  have hcore : core.dropWhile isBlank = core := by
    cases core with
    | nil => rfl
    | cons c r =>
      have hf : isBlank c = false := hc c rfl
      rw [List.dropWhile_cons, if_neg (by simp [hf])]
  rw [trimStart, List.dropWhile_append_of_pos hl, hcore]

theorem trimStart_blank {s : List Char} (h : ∀ c ∈ s, isBlank c = true) : trimStart s = [] := by
  have hhead : ∀ c ∈ ([] : List Char).head?, isBlank c = false := by simp
  have hnil := trimStart_append h hhead
  rwa [List.append_nil] at hnil

theorem trimEnd_append {core right : List Char} (hr : ∀ c ∈ right, isBlank c = true)
    (hc : ∀ c ∈ core.getLast?, isBlank c = false) : trimEnd (core ++ right) = core := by
  have hb : ∀ c ∈ right.reverse, isBlank c = true := fun c h => hr c (List.mem_reverse.mp h)
  have hl : ∀ c ∈ core.reverse.head?, isBlank c = false := by
    intro c h
    rw [List.head?_reverse] at h
    exact hc c h
  rw [trimEnd, List.reverse_append, trimStart_append hb hl, List.reverse_reverse]

theorem TrimsTo.trim_eq {s core : List Char} (h : TrimsTo s core) : trim s = core := by
  obtain ⟨⟨left, right, rfl, hl, hr⟩, hh, ht⟩ := h
  cases core with
  | nil =>
    have hall : ∀ c ∈ left ++ [] ++ right, isBlank c = true := by
      intro c hc
      rw [List.append_nil, List.mem_append] at hc
      exact hc.elim (hl c) (hr c)
    rw [trim, trimStart_blank hall]
    rfl
  | cons a r =>
    rw [trim, List.append_assoc, trimStart_append hl (by simpa using hh), trimEnd_append hr ht]

theorem exists_eq_append_trimStart (s : List Char) :
    ∃ left, s = left ++ trimStart s ∧ (∀ c ∈ left, isBlank c = true) ∧
      ∀ c ∈ (trimStart s).head?, isBlank c = false := by
  refine ⟨s.takeWhile isBlank, List.takeWhile_append_dropWhile.symm,
    List.all_eq_true.mp List.all_takeWhile, ?_⟩
  intro c hc
  have hd := List.head?_dropWhile_not isBlank s
  rw [trimStart] at hc
  rw [hc] at hd
  simpa using hd

theorem trimsTo_trim (s : List Char) : TrimsTo s (trim s) := by
  obtain ⟨left, hs, hl, hh⟩ := exists_eq_append_trimStart s
  obtain ⟨right, hr, hb, ht⟩ := exists_eq_append_trimStart (trimStart s).reverse
  have hcut : trimStart s = trim s ++ right.reverse := by
    have := congrArg List.reverse hr
    simpa [trim, trimEnd] using this
  refine ⟨⟨left, right.reverse, ?_, hl, fun c hc => hb c (List.mem_reverse.mp hc)⟩, ?_, ?_⟩
  · rw [List.append_assoc, ← hcut]
    exact hs
  · intro c hc
    apply hh c
    rw [hcut, List.head?_append]
    simp [Option.mem_def.mp hc]
  · intro c hc
    apply ht c
    rw [trim, trimEnd, List.getLast?_reverse] at hc
    exact hc

theorem trim_eq_iff {s core : List Char} : trim s = core ↔ TrimsTo s core := by
  constructor
  · rintro rfl
    exact trimsTo_trim s
  · exact TrimsTo.trim_eq

end CamelLint.Text

namespace CamelLint.DeclarationKind

open Text (IsSegment TrimsTo)

/-! ### Kinds -/

/-- Some segment of the list is the token of the kind, blanks around it apart. -/
def IsNamedIn (k : DeclarationKind) (tokens : String) : Prop :=
  ∃ s, IsSegment ',' s tokens.toList ∧ TrimsTo s k.token.toList

theorem mem_keepFirst {k : DeclarationKind} {ks : List DeclarationKind} :
    k ∈ keepFirst ks ↔ k ∈ ks := by
  induction ks with
  | nil => rfl
  | cons j r ih =>
    rw [keepFirst, List.mem_cons, List.mem_cons, List.mem_filter, ih]
    by_cases h : k = j <;> simp [h]

theorem ofToken?_trim_eq_some_iff {k : DeclarationKind} {s : List Char} :
    ofToken? (String.ofList (Text.trim s)) = some k ↔ TrimsTo s k.token.toList := by
  rw [ofToken?_eq_some_iff, ← Text.trim_eq_iff, ← String.toList_inj, String.toList_ofList]

theorem mem_ofTokens_iff {k : DeclarationKind} {tokens : String} :
    k ∈ ofTokens tokens ↔ k.IsNamedIn tokens := by
  rw [ofTokens, mem_keepFirst, List.mem_filterMap]
  simp only [IsNamedIn, ofToken?_trim_eq_some_iff, Text.mem_segments_iff]

end CamelLint.DeclarationKind
