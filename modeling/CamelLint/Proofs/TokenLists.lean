import CamelLint.Proofs.Tokens
import Mathlib.Data.List.Basic
import Mathlib.Data.Nat.Find
import Mathlib.Order.Bounds.Defs

/-! The order of a token list, and token lists written and read back. A kind stands where
the first segment that names it begins. A list of kinds can be written with blanks
around its tokens and with segments between them that name no kind; what is read is
the list without its repetitions. -/

namespace CamelLint.Text

/-! ### Where segments begin -/

/-- A maximal stretch of the text that is free of the separator, with `start` characters in
front of it. -/
def IsSegmentAt (separator : Char) (s : List Char) (start : Nat) (text : List Char) : Prop :=
  separator ∉ s ∧ ∃ before after, text = before ++ s ++ after ∧ before.length = start ∧
    (before = [] ∨ before.getLast? = some separator) ∧
    (after = [] ∨ after.head? = some separator)

theorem isSegment_iff_exists_start {separator : Char} {s text : List Char} :
    IsSegment separator s text ↔ ∃ start, IsSegmentAt separator s start text := by
  constructor
  · rintro ⟨hs, before, after, htext, hb, ha⟩
    exact ⟨before.length, hs, before, after, htext, rfl, hb, ha⟩
  · rintro ⟨_, hs, before, after, htext, -, hb, ha⟩
    exact ⟨hs, before, after, htext, hb, ha⟩

theorem IsSegmentAt.start_le {separator : Char} {s text : List Char} {start : Nat}
    (h : IsSegmentAt separator s start text) : start ≤ text.length := by
  obtain ⟨-, before, after, rfl, rfl, -⟩ := h
  simp only [List.length_append]
  omega

theorem IsSegmentAt.append_right {separator : Char} {s x : List Char} {start : Nat}
    (h : IsSegmentAt separator s start x) (y : List Char) :
    IsSegmentAt separator s start (x ++ separator :: y) := by
  obtain ⟨hs, before, after, rfl, hstart, hb, ha⟩ := h
  refine ⟨hs, before, after ++ separator :: y, by simp, hstart, hb, .inr ?_⟩
  rcases ha with rfl | ha
  · rfl
  · rw [List.head?_append, ha]
    rfl

theorem IsSegmentAt.append_left {separator : Char} {s y : List Char} {start : Nat}
    (x : List Char) (h : IsSegmentAt separator s start y) :
    IsSegmentAt separator s (x.length + 1 + start) (x ++ separator :: y) := by
  obtain ⟨hs, before, after, rfl, rfl, hb, ha⟩ := h
  refine ⟨hs, x ++ separator :: before, after, by simp, ?_, .inr ?_, ha⟩
  · simp only [List.length_append, List.length_cons]
    omega
  · rcases hb with rfl | hb
    · exact List.getLast?_concat
    · rw [List.getLast?_append, List.getLast?_cons, hb]
      rfl

/-- A segment that begins before a separator also ends before it. -/
theorem IsSegmentAt.of_append_cons {separator : Char} {s before l after y : List Char}
    (hs : separator ∉ s) (hb : before = [] ∨ before.getLast? = some separator)
    (ha : after = [] ∨ after.head? = some separator) (h : s ++ after = l ++ separator :: y) :
    IsSegmentAt separator s before.length (before ++ l) := by
  rw [List.append_eq_append_iff] at h
  rcases h with ⟨r, rfl, hr⟩ | ⟨r, rfl, hr⟩
  · refine ⟨hs, before, r, by simp, rfl, hb, ?_⟩
    cases r with
    | nil => exact .inl rfl
    | cons c r =>
      rw [hr] at ha
      simpa using ha
  · cases r with
    | nil => exact ⟨by simpa using hs, before, [], by simp, rfl, hb, .inl rfl⟩
    | cons c r =>
      cases hr
      exact absurd (List.mem_append_right l List.mem_cons_self) hs

/-- A segment of a text with a separator in it is on one side of the separator. -/
theorem isSegmentAt_append_cons_iff {separator : Char} {s x y : List Char} {start : Nat} :
    IsSegmentAt separator s start (x ++ separator :: y) ↔
      IsSegmentAt separator s start x ∨
        ∃ n, IsSegmentAt separator s n y ∧ start = x.length + 1 + n := by
  constructor
  · rintro ⟨hs, before, after, htext, rfl, hb, ha⟩
    rw [List.append_assoc, List.append_eq_append_iff] at htext
    -- What stands before the segment ends behind `x` or within it; `l` is what is left over.
    rcases htext with ⟨l, rfl, hl⟩ | ⟨l, rfl, hl⟩
    · cases l with
      | nil =>
        rw [List.append_nil] at hb ⊢
        have hx := IsSegmentAt.of_append_cons (l := []) hs hb ha hl.symm
        rw [List.append_nil] at hx
        exact .inl hx
      | cons c l =>
        rw [List.cons_append, List.cons.injEq] at hl
        obtain ⟨rfl, rfl⟩ := hl
        refine .inr ⟨l.length, ⟨hs, l, after, by simp, rfl, ?_, ha⟩, ?_⟩
        · cases l with
          | nil => exact .inl rfl
          | cons d l => exact .inr (by simpa using hb)
        · simp only [List.length_append, List.length_cons]
          omega
    · exact .inl (.of_append_cons hs hb ha hl)
  · rintro (h | ⟨n, h, rfl⟩)
    · exact h.append_right y
    · exact h.append_left x

end CamelLint.Text

namespace CamelLint.DeclarationKind

open Text (IsSegmentAt TrimsTo)

/-! ### Repetitions -/

theorem nodup_keepFirst (ks : List DeclarationKind) : (keepFirst ks).Nodup := by
  induction ks with
  | nil => exact List.nodup_nil
  | cons k r ih =>
    rw [keepFirst, List.nodup_cons]
    exact ⟨by simp, ih.filter _⟩

theorem keepFirst_of_nodup {ks : List DeclarationKind} (h : ks.Nodup) : keepFirst ks = ks := by
  induction ks with
  | nil => rfl
  | cons k r ih =>
    obtain ⟨hk, hr⟩ := List.nodup_cons.mp h
    have hkeep : r.filter (· ≠ k) = r := by
      rw [List.filter_eq_self]
      intro j hj
      rw [decide_eq_true_eq]
      rintro rfl
      exact hk hj
    rw [keepFirst, ih hr, hkeep]

theorem keepFirst_filter (p : DeclarationKind → Bool) (ks : List DeclarationKind) :
    keepFirst (ks.filter p) = (keepFirst ks).filter p := by
  induction ks with
  | nil => rfl
  | cons k r ih =>
    by_cases hk : p k = true
    · rw [List.filter_cons_of_pos hk, keepFirst, keepFirst, ih, List.filter_cons_of_pos hk,
        List.filter_comm]
    · rw [List.filter_cons_of_neg hk, keepFirst, ih, List.filter_cons_of_neg hk,
        List.filter_filter]
      refine List.filter_congr fun j _ => ?_
      by_cases hj : j = k
      · simp [hj, hk]
      · simp [hj]

theorem keepFirst_eq_eraseDups (ks : List DeclarationKind) : keepFirst ks = ks.eraseDups := by
  cases ks with
  | nil => rfl
  | cons k r =>
    -- One filters after the recursion and the other before it, so the recursion is on the length.
    rw [keepFirst, ← keepFirst_filter, keepFirst_eq_eraseDups (r.filter _), List.eraseDups_cons]
    congr 2
    refine List.filter_congr fun j _ => ?_
    by_cases hj : j = k <;> simp [hj]
termination_by ks.length
decreasing_by
  exact Nat.lt_succ_of_le (List.length_filter_le _ r)

/-- One kind stands before another if it is in a stretch at the front without the other. -/
theorem pair_sublist_keepFirst_iff {j k : DeclarationKind} {ks : List DeclarationKind} :
    [j, k].Sublist (keepFirst ks) ↔ ∃ a b, ks = a ++ b ∧ j ∈ a ∧ k ∉ a ∧ k ∈ b := by
  induction ks with
  | nil => simp [keepFirst]
  | cons i r ih =>
    rw [keepFirst, List.cons_sublist_cons', List.singleton_sublist, List.mem_filter, mem_keepFirst,
      decide_eq_true_eq]
    constructor
    · rintro (h | ⟨rfl, hk, hne⟩)
      · have hr := h.trans List.filter_sublist
        obtain ⟨a, b, rfl, hj, hka, hkb⟩ := ih.mp hr
        have hne : k ≠ i := by simpa using List.of_mem_filter (h.subset (by simp))
        exact ⟨i :: a, b, rfl, List.mem_cons_of_mem i hj, by simp [hne, hka], hkb⟩
      · exact ⟨[j], r, rfl, List.mem_singleton_self j, by simpa using hne, hk⟩
    · rintro ⟨a, b, hr, hj, hka, hkb⟩
      cases a with
      | nil => cases hj
      | cons x a =>
        rw [List.cons_append, List.cons.injEq] at hr
        obtain ⟨rfl, rfl⟩ := hr
        rw [List.mem_cons, not_or] at hka
        rw [List.mem_cons] at hj
        by_cases hji : j = i
        · exact .inr ⟨hji, List.mem_append_right a hkb, hka.1⟩
        · have hsub := ih.mpr ⟨a, b, rfl, hj.resolve_left hji, hka.2, hkb⟩
          have hfilter := hsub.filter (· ≠ i)
          rw [List.filter_eq_self.mpr (by simp [hji, hka.1])] at hfilter
          exact .inl hfilter

/-! ### The order of a token list -/

/-- The segment that begins at an offset is the token of the kind, blanks around it apart. -/
def IsNamedAt (k : DeclarationKind) (start : Nat) (text : List Char) : Prop :=
  ∃ s, IsSegmentAt ',' s start text ∧ TrimsTo s k.token.toList

/-- The first segment that names the kind begins at the offset. -/
def IsFirstNamedAt (k : DeclarationKind) (start : Nat) (text : List Char) : Prop :=
  IsLeast {n | k.IsNamedAt n text} start

theorem isNamedIn_iff_exists_start {k : DeclarationKind} {tokens : String} :
    k.IsNamedIn tokens ↔ ∃ start, k.IsNamedAt start tokens.toList := by
  simp only [IsNamedIn, IsNamedAt, Text.isSegment_iff_exists_start]
  constructor
  · rintro ⟨s, ⟨n, hn⟩, hs⟩
    exact ⟨n, s, hn, hs⟩
  · rintro ⟨n, s, hn, hs⟩
    exact ⟨s, ⟨n, hn⟩, hs⟩

theorem isNamedAt_append_cons_iff {k : DeclarationKind} {x y : List Char} {start : Nat} :
    k.IsNamedAt start (x ++ ',' :: y) ↔
      k.IsNamedAt start x ∨ ∃ n, k.IsNamedAt n y ∧ start = x.length + 1 + n := by
  simp only [IsNamedAt, Text.isSegmentAt_append_cons_iff]
  constructor
  · rintro ⟨s, h | ⟨n, h, rfl⟩, hs⟩
    · exact .inl ⟨s, h, hs⟩
    · exact .inr ⟨n, ⟨s, h, hs⟩, rfl⟩
  · rintro (⟨s, h, hs⟩ | ⟨n, ⟨s, h, hs⟩, rfl⟩)
    · exact ⟨s, .inl h, hs⟩
    · exact ⟨s, .inr ⟨n, h, rfl⟩, hs⟩

/-- The kinds that the segments of a text name, one after another. -/
def kindsIn (text : List Char) : List DeclarationKind :=
  (Text.segments ',' text).filterMap fun s => ofToken? (String.ofList (Text.trim s))

theorem ofTokens_eq (tokens : String) : ofTokens tokens = keepFirst (kindsIn tokens.toList) := rfl

theorem mem_kindsIn_iff {k : DeclarationKind} {text : List Char} :
    k ∈ kindsIn text ↔ ∃ start, k.IsNamedAt start text := by
  rw [← String.toList_ofList (l := text), ← isNamedIn_iff_exists_start, ← mem_ofTokens_iff,
    ofTokens_eq, mem_keepFirst]

/-- Wherever the kinds are cut, both parts are those of a part of the text. -/
theorem kindsIn_eq_append {text : List Char} {a b : List DeclarationKind} (ha : a ≠ [])
    (hb : b ≠ []) (h : kindsIn text = a ++ b) :
    ∃ x y, text = x ++ ',' :: y ∧ kindsIn x = a ∧ kindsIn y = b := by
  obtain ⟨s, t, hst, rfl, rfl⟩ := List.filterMap_eq_append_iff.mp h
  have hs : s ≠ [] := by
    rintro rfl
    exact ha rfl
  have ht : t ≠ [] := by
    rintro rfl
    exact hb rfl
  obtain ⟨x, y, rfl, rfl, rfl⟩ := (Text.segments_eq_append_iff hs ht).mp hst
  exact ⟨x, y, rfl, rfl, rfl⟩

theorem pair_sublist_iff_exists_cut {j k : DeclarationKind} {text : List Char} :
    [j, k].Sublist (keepFirst (kindsIn text)) ↔
      ∃ x y, text = x ++ ',' :: y ∧ j ∈ kindsIn x ∧ k ∉ kindsIn x ∧ k ∈ kindsIn y := by
  rw [pair_sublist_keepFirst_iff]
  constructor
  · rintro ⟨a, b, hab, hj, hka, hkb⟩
    obtain ⟨x, y, rfl, rfl, rfl⟩ :=
      kindsIn_eq_append (List.ne_nil_of_mem hj) (List.ne_nil_of_mem hkb) hab
    exact ⟨x, y, rfl, hj, hka, hkb⟩
  · rintro ⟨x, y, rfl, hj, hka, hkb⟩
    refine ⟨kindsIn x, kindsIn y, ?_, hj, hka, hkb⟩
    rw [kindsIn, Text.segments_append_cons, List.filterMap_append]
    rfl

theorem IsNamedAt.start_le {k : DeclarationKind} {start : Nat} {text : List Char}
    (h : k.IsNamedAt start text) : start ≤ text.length := by
  obtain ⟨s, hs, -⟩ := h
  exact hs.start_le

theorem exists_isFirstNamedAt {k : DeclarationKind} {text : List Char}
    (h : ∃ start, k.IsNamedAt start text) : ∃ start, k.IsFirstNamedAt start text := by
  classical
  exact ⟨Nat.find h, Nat.find_spec h, fun n hn => Nat.find_min' h hn⟩

/-- What is named behind the start of a text is named behind a separator. -/
theorem IsNamedAt.exists_cut {k : DeclarationKind} {start : Nat} {text : List Char}
    (h : k.IsNamedAt start text) (hpos : 0 < start) :
    ∃ x y, text = x ++ ',' :: y ∧ start = x.length + 1 ∧ k.IsNamedAt 0 y := by
  obtain ⟨s, ⟨hs, before, after, rfl, rfl, hb, ha⟩, htrim⟩ := h
  rcases hb with rfl | hb
  · simp at hpos
  · obtain ⟨x, rfl⟩ := List.getLast?_eq_some_iff.mp hb
    exact ⟨x, s ++ after, by simp, by simp, s, ⟨hs, [], after, rfl, rfl, .inl rfl, ha⟩, htrim⟩

theorem pair_sublist_iff_first {j k : DeclarationKind} {text : List Char} :
    [j, k].Sublist (keepFirst (kindsIn text)) ↔
      ∃ m n, j.IsFirstNamedAt m text ∧ k.IsFirstNamedAt n text ∧ m < n := by
  rw [pair_sublist_iff_exists_cut]
  simp only [mem_kindsIn_iff]
  constructor
  · rintro ⟨x, y, rfl, ⟨i, hj⟩, hkx, ⟨l, hky⟩⟩
    have hj' : j.IsNamedAt i (x ++ ',' :: y) := isNamedAt_append_cons_iff.mpr (.inl hj)
    have hk' : k.IsNamedAt (x.length + 1 + l) (x ++ ',' :: y) :=
      isNamedAt_append_cons_iff.mpr (.inr ⟨l, hky, rfl⟩)
    obtain ⟨m, hm⟩ := exists_isFirstNamedAt ⟨i, hj'⟩
    obtain ⟨n, hn⟩ := exists_isFirstNamedAt ⟨_, hk'⟩
    refine ⟨m, n, hm, hn, ?_⟩
    have hmx : m ≤ x.length := le_trans (hm.2 hj') hj.start_le
    rcases isNamedAt_append_cons_iff.mp hn.1 with h | ⟨l, -, rfl⟩
    · exact absurd ⟨n, h⟩ hkx
    · omega
  · rintro ⟨m, n, hm, hn, hmn⟩
    -- The cut is at the separator right before the first segment that names `k`.
    obtain ⟨x, y, rfl, rfl, hky⟩ := IsNamedAt.exists_cut hn.1 (by omega)
    refine ⟨x, y, rfl, ?_, ?_, 0, hky⟩
    · rcases isNamedAt_append_cons_iff.mp hm.1 with h | ⟨l, -, rfl⟩
      · exact ⟨m, h⟩
      · omega
    · rintro ⟨i, hi⟩
      have hle := hn.2 (isNamedAt_append_cons_iff.mpr (.inl hi))
      have := hi.start_le
      omega

/-- A token list has no repetitions, holds just the kinds that its segments name, and one
before another if the first segment that names it begins before the first that names the
other. -/
theorem ofTokens_specification (tokens : String) :
    (ofTokens tokens).Nodup ∧
    (∀ k, k ∈ ofTokens tokens ↔ k.IsNamedIn tokens) ∧
    ∀ j k, [j, k].Sublist (ofTokens tokens) ↔
      ∃ m n, j.IsFirstNamedAt m tokens.toList ∧ k.IsFirstNamedAt n tokens.toList ∧ m < n :=
  ⟨nodup_keepFirst _, fun _ => mem_ofTokens_iff, fun _ _ => pair_sublist_iff_first⟩

example : ofTokens "ENUM_DEF,\u00a0CLASS_DEF\t, ENUM_DEF,CLASS _DEF,class_def,,RECORD_DEF" =
    [enumDef, classDef, recordDef] := by
  decide +kernel

/-! ### Written and read back -/

/-- The segments that write kinds one after another: tokens with blanks around them, and
segments between them that are no token, whatever is trimmed off. -/
inductive Writes : List DeclarationKind → List (List Char) → Prop where
  | nil : Writes [] []
  | token {k : DeclarationKind} {l r : List Char} {ks : List DeclarationKind}
      {ss : List (List Char)} (hl : ∀ c ∈ l, Text.isBlank c = true)
      (hr : ∀ c ∈ r, Text.isBlank c = true) (h : Writes ks ss) :
      Writes (k :: ks) ((l ++ k.token.toList ++ r) :: ss)
  | unknown {s : List Char} {ks : List DeclarationKind} {ss : List (List Char)} (hs : ',' ∉ s)
      (hn : ∀ k : DeclarationKind, ¬ TrimsTo s k.token.toList) (h : Writes ks ss) :
      Writes ks (s :: ss)

theorem not_isBlank_of_mem_token {k : DeclarationKind} {c : Char} (h : c ∈ k.token.toList) :
    Text.isBlank c = false := by
  have hall : ∀ k : DeclarationKind, k.token.toList.all (fun c => !Text.isBlank c) = true := by
    intro k
    cases k <;> decide
  simpa using List.all_eq_true.mp (hall k) c h

theorem comma_not_mem_token (k : DeclarationKind) : ',' ∉ k.token.toList := by
  cases k <;> decide

theorem comma_not_mem_of_isBlank {s : List Char} (h : ∀ c ∈ s, Text.isBlank c = true) :
    ',' ∉ s := fun hm => absurd (h ',' hm) (by decide)

theorem trimsTo_token (k : DeclarationKind) {left right : List Char}
    (hl : ∀ c ∈ left, Text.isBlank c = true) (hr : ∀ c ∈ right, Text.isBlank c = true) :
    TrimsTo (left ++ k.token.toList ++ right) k.token.toList :=
  ⟨⟨left, right, rfl, hl, hr⟩,
    fun _ hc => not_isBlank_of_mem_token (List.mem_of_mem_head? hc),
    fun _ hc => not_isBlank_of_mem_token (List.mem_of_mem_getLast? hc)⟩

theorem Writes.comma_not_mem {ks : List DeclarationKind} {ss : List (List Char)}
    (h : Writes ks ss) : ∀ s ∈ ss, ',' ∉ s := by
  induction h with
  | nil => simp
  | @token k left right ks ss hl hr h ih =>
    refine List.forall_mem_cons.mpr ⟨?_, ih⟩
    simp only [List.mem_append, not_or]
    exact ⟨⟨comma_not_mem_of_isBlank hl, comma_not_mem_token k⟩, comma_not_mem_of_isBlank hr⟩
  | unknown hs hn h ih => exact List.forall_mem_cons.mpr ⟨hs, ih⟩

theorem Writes.filterMap_eq {ks : List DeclarationKind} {ss : List (List Char)}
    (h : Writes ks ss) :
    (ss.filterMap fun s => ofToken? (String.ofList (Text.trim s))) = ks := by
  induction h with
  | nil => rfl
  | @token k left right ks ss hl hr h ih =>
    have hk := ofToken?_trim_eq_some_iff.mpr (trimsTo_token k hl hr)
    simp only [List.filterMap_cons, hk, ih]
  | @unknown s ks ss hs hn h ih =>
    have hnone : ofToken? (String.ofList (Text.trim s)) = none := by
      rw [Option.eq_none_iff_forall_ne_some]
      exact fun k hk => hn k (ofToken?_trim_eq_some_iff.mp hk)
    simp only [List.filterMap_cons, hnone, ih]

theorem Writes.ofTokens_eq {ks : List DeclarationKind} {ss : List (List Char)}
    (h : Writes ks ss) : ofTokens (String.ofList ([','].intercalate ss)) = keepFirst ks := by
  rw [DeclarationKind.ofTokens_eq, String.toList_ofList, kindsIn]
  by_cases hne : ss = []
  · subst hne
    cases h
    decide
  · rw [Text.segments_intercalate hne h.comma_not_mem, h.filterMap_eq]

theorem writes_map_token (ks : List DeclarationKind) : Writes ks (ks.map (·.token.toList)) := by
  induction ks with
  | nil => exact .nil
  | cons k r ih =>
    have h : Writes (k :: r) (([] ++ k.token.toList ++ []) :: r.map (·.token.toList)) :=
      .token (by simp) (by simp) ih
    simpa using h

/-- Kinds that are written as a token list, with whatever blanks and unknown segments, are
read back with their repetitions removed; and the tokens of what is read of any text are
read back as they are. -/
theorem ofTokens_round_trip :
    (∀ (ks : List DeclarationKind) (ss : List (List Char)), Writes ks ss →
      ofTokens (String.ofList ([','].intercalate ss)) = ks.eraseDups) ∧
    ∀ tokens : String,
      ofTokens (",".intercalate ((ofTokens tokens).map token)) = ofTokens tokens := by
  refine ⟨fun ks ss h => h.ofTokens_eq.trans (keepFirst_eq_eraseDups ks), ?_⟩
  intro tokens
  have hjoin : ",".intercalate ((ofTokens tokens).map token) =
      String.ofList ([','].intercalate ((ofTokens tokens).map (·.token.toList))) := by
    rw [← String.toList_inj, String.toList_ofList, String.toList_intercalate, List.map_map]
    rfl
  rw [hjoin, (writes_map_token _).ofTokens_eq, keepFirst_of_nodup]
  exact nodup_keepFirst _

/-- Segments of three kinds, one of them twice, with an empty segment, a segment of blanks, an
unknown word and a token with a blank inside. -/
def paddedSegments : List (List Char) :=
  [" ENUM_DEF".toList, [], "\u3000\t".toList, "CLASS_DEF\u00a0".toList, "METHOD_DEF".toList,
    "ENUM_DEF".toList, "CLASS _DEF".toList, "\nRECORD_DEF\r".toList]

theorem ofTokens_round_trip_padded :
    Writes [enumDef, classDef, enumDef, recordDef] paddedSegments ∧
    ofTokens (String.ofList ([','].intercalate paddedSegments)) =
      [enumDef, classDef, recordDef] := by
  have hunknown : ∀ s : List Char, (∀ k ∈ all, Text.trim s ≠ k.token.toList) →
      ∀ k : DeclarationKind, ¬ TrimsTo s k.token.toList :=
    fun s h k hk => h k (mem_all k) (Text.trim_eq_iff.mpr hk)
  have hblank {c : Char} (hc : Text.isBlank c = true) : ∀ d ∈ [c], Text.isBlank d = true :=
    List.forall_mem_singleton.mpr hc
  have hnone : ∀ d ∈ ([] : List Char), Text.isBlank d = true := List.forall_mem_nil _
  have h : Writes [enumDef, classDef, enumDef, recordDef] paddedSegments :=
    .token (l := [' ']) (hblank (by decide)) hnone
      (.unknown (by decide) (hunknown _ (by decide))
        (.unknown (by decide) (hunknown _ (by decide))
          (.token (r := ['\u00a0']) hnone (hblank (by decide))
            (.unknown (by decide) (hunknown _ (by decide))
              (.token hnone hnone
                (.unknown (by decide) (hunknown _ (by decide))
                  (.token (l := ['\n']) (r := ['\r']) (hblank (by decide)) (hblank (by decide))
                    .nil)))))))
  exact ⟨h, ofTokens_round_trip.1 _ _ h⟩

end CamelLint.DeclarationKind
