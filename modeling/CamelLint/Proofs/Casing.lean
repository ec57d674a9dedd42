import CamelLint.Casing
import Mathlib.Data.List.Basic
import Mathlib.Tactic.SplitIfs

/-! The casing test means what it is for: the one pass with a carried flag rejects
exactly the names in which two neighbouring characters are both uppercase, be they
found by their positions or by a look at every window of two characters. In a name that
is put together of pieces, the pair lies in one piece or where two pieces meet. -/

namespace CamelLint.Casing

open Text (isUppercase)

/-- Two neighbouring characters are both uppercase. -/
def HasUppercasePair (s : List Char) : Prop :=
  ∃ a b, [a, b] <:+: s ∧ isUppercase a = true ∧ isUppercase b = true

/-- The first character, if there is one, is uppercase. -/
def StartsUppercase (s : List Char) : Prop := ∃ c r, s = c :: r ∧ isUppercase c = true

theorem not_hasUppercasePair_nil : ¬ HasUppercasePair [] := by
  rintro ⟨a, b, h, -⟩
  simp at h

@[simp] theorem startsUppercase_cons (c : Char) (s : List Char) :
    StartsUppercase (c :: s) ↔ isUppercase c = true := by
  simp [StartsUppercase]

theorem hasUppercasePair_cons (c : Char) (s : List Char) :
    HasUppercasePair (c :: s) ↔
      (isUppercase c = true ∧ StartsUppercase s) ∨ HasUppercasePair s := by
  constructor
  · rintro ⟨a, b, h, ha, hb⟩
    rcases List.infix_cons_iff.mp h with hp | hi
    · obtain ⟨rfl, r, rfl⟩ : a = c ∧ ∃ r, s = b :: r := by
        obtain ⟨r, hr⟩ := hp
        simp only [List.cons_append, List.nil_append, List.cons.injEq] at hr
        exact ⟨hr.1, r, hr.2.symm⟩
      exact .inl ⟨ha, b, r, rfl, hb⟩
    · exact .inr ⟨a, b, hi, ha, hb⟩
  · rintro (⟨hc, b, r, rfl, hb⟩ | ⟨a, b, h, ha, hb⟩)
    · exact ⟨c, b, ⟨[], r, rfl⟩, hc, hb⟩
    · exact ⟨a, b, List.infix_cons h, ha, hb⟩

/-- The carried flag stands for the character before the text. -/
theorem classifyAfter_eq_rejected_iff (wasUpper : Bool) (s : List Char) :
    classifyAfter wasUpper s = .rejected ↔
      (wasUpper = true ∧ StartsUppercase s) ∨ HasUppercasePair s := by
  induction s generalizing wasUpper with
  | nil =>
    have hn := not_hasUppercasePair_nil
    simp [classifyAfter, StartsUppercase, hn]
  | cons c r ih =>
    rw [hasUppercasePair_cons, startsUppercase_cons, classifyAfter]
    split_ifs with h
    · rw [Bool.and_eq_true] at h
      exact ⟨fun _ => .inl h, fun _ => rfl⟩
    · rw [Bool.and_eq_true] at h
      rw [ih]
      exact ⟨.inr, fun hp => hp.resolve_left h⟩

theorem classify_eq_rejected_iff_pair (name : String) :
    classify name = .rejected ↔ HasUppercasePair name.toList := by
  rw [classify, classifyAfter_eq_rejected_iff]
  simp

/-! ### Positions and windows -/

theorem hasUppercasePair_iff_getElem? (s : List Char) :
    HasUppercasePair s ↔
      ∃ i a b, s[i]? = some a ∧ s[i + 1]? = some b ∧ isUppercase a = true ∧
        isUppercase b = true := by
  constructor
  · rintro ⟨a, b, ⟨before, after, rfl⟩, ha, hb⟩
    exact ⟨before.length, a, b, by simp, by simp, ha, hb⟩
  · rintro ⟨i, a, b, hi, hj, ha, hb⟩
    obtain ⟨hi', rfl⟩ := List.getElem?_eq_some_iff.mp hi
    obtain ⟨hj', rfl⟩ := List.getElem?_eq_some_iff.mp hj
    have hdrop : s.drop i = s[i] :: s[i + 1] :: s.drop (i + 2) := by
      rw [List.drop_eq_getElem_cons hi', List.drop_eq_getElem_cons hj']
    refine ⟨s[i], s[i + 1], ⟨s.take i, s.drop (i + 2), ?_⟩, ha, hb⟩
    rw [List.append_assoc, List.cons_append, List.singleton_append, ← hdrop, List.take_append_drop]

/-- The stretches of `n` neighbours, from left to right. -/
def windows {α : Type} (n : Nat) (s : List α) : List (List α) :=
  (List.range (s.length + 1 - n)).map fun i => (s.drop i).take n

theorem mem_windows_iff {α : Type} {n : Nat} {w s : List α} :
    w ∈ windows n s ↔ w.length = n ∧ w <:+: s := by
  rw [windows, List.mem_map]
  constructor
  · rintro ⟨i, hi, rfl⟩
    rw [List.mem_range] at hi
    constructor
    · rw [List.length_take, List.length_drop]
      omega
    · exact (List.take_prefix n _).isInfix.trans (List.drop_suffix i s).isInfix
  · rintro ⟨rfl, before, after, rfl⟩
    refine ⟨before.length, ?_, by simp⟩
    rw [List.mem_range]
    simp only [List.length_append]
    omega

/-- Two neighbouring characters both have the property. -/
def HasNeighbours (p : Char → Prop) (s : List Char) : Prop := ∃ a b, [a, b] <:+: s ∧ p a ∧ p b

theorem hasNeighbours_iff {p : Char → Prop} {s : List Char} :
    HasNeighbours p s ↔ ∃ w ∈ windows 2 s, ∀ c ∈ w, p c := by
  constructor
  · rintro ⟨a, b, h, ha, hb⟩
    refine ⟨[a, b], mem_windows_iff.mpr ⟨rfl, h⟩, ?_⟩
    simp [ha, hb]
  · rintro ⟨w, hw, hp⟩
    obtain ⟨hlength, h⟩ := mem_windows_iff.mp hw
    obtain ⟨a, b, rfl⟩ := List.length_eq_two.mp hlength
    exact ⟨a, b, h, hp a (by simp), hp b (by simp)⟩

/-- The test read pair by pair: both characters of some window are uppercase. -/
def hasUppercaseWindow (name : String) : Bool :=
  (windows 2 name.toList).any (·.all isUppercase)

theorem hasUppercaseWindow_iff (name : String) :
    hasUppercaseWindow name = true ↔ HasUppercasePair name.toList := by
  simp only [hasUppercaseWindow, List.any_eq_true, List.all_eq_true]
  exact hasNeighbours_iff.symm

/-- The one pass agrees with the definition by positions and with the look at every window, and
a name is in upper camel case when no window speaks against it. -/
theorem classify_pairwise (name : String) :
    (classify name = .rejected ↔
      ∃ i a b, name.toList[i]? = some a ∧ name.toList[i + 1]? = some b ∧
        isUppercase a = true ∧ isUppercase b = true) ∧
    (classify name).isRejected = hasUppercaseWindow name ∧
    isUpperCamelCase name = !hasUppercaseWindow name := by
  have hpair := classify_eq_rejected_iff_pair name
  have hrejected : (classify name).isRejected = hasUppercaseWindow name := by
    rw [Bool.eq_iff_iff, hasUppercaseWindow_iff, ← hpair]
    cases classify name <;> simp [Verdict.isAccepted]
  refine ⟨hpair.trans (hasUppercasePair_iff_getElem? _), hrejected, ?_⟩
  rw [← hrejected, isUpperCamelCase, Verdict.isRejected_eq_not, Bool.not_not]

/-! ### Concatenations -/

/-- The last character, if there is one, is uppercase. -/
def EndsUppercase (s : List Char) : Prop := ∃ c, s.getLast? = some c ∧ isUppercase c = true

@[simp] theorem not_endsUppercase_nil : ¬ EndsUppercase [] := by
  simp [EndsUppercase]

@[simp] theorem endsUppercase_concat (s : List Char) (c : Char) :
    EndsUppercase (s ++ [c]) ↔ isUppercase c = true := by
  simp [EndsUppercase]

theorem endsUppercase_cons_cons (c d : Char) (s : List Char) :
    EndsUppercase (c :: d :: s) ↔ EndsUppercase (d :: s) := by
  rw [EndsUppercase, EndsUppercase, List.getLast?_cons_cons]

@[simp] theorem not_startsUppercase_nil : ¬ StartsUppercase [] := by
  simp [StartsUppercase]

/-- Two parts have a pair between them that neither has. -/
theorem hasUppercasePair_append (s t : List Char) :
    HasUppercasePair (s ++ t) ↔
      HasUppercasePair s ∨ (EndsUppercase s ∧ StartsUppercase t) ∨ HasUppercasePair t := by
  induction s with
  | nil => simp [not_hasUppercasePair_nil]
  | cons c r ih =>
    rw [List.cons_append, hasUppercasePair_cons, hasUppercasePair_cons, ih]
    cases r with
    | nil =>
      have hc : EndsUppercase [c] ↔ isUppercase c = true := endsUppercase_concat [] c
      rw [hc, List.nil_append]
      simp only [not_startsUppercase_nil, not_endsUppercase_nil, not_hasUppercasePair_nil]
      tauto
    | cons d r =>
      rw [endsUppercase_cons_cons, List.cons_append, startsUppercase_cons, startsUppercase_cons]
      tauto

/-- The pieces at two places have at most empty ones between them, and the first ends and the
second begins with an uppercase character. -/
structure MeetUppercase (pieces : List String) (i j : Nat) : Prop where
  lt : i < j
  ends : ∃ s, pieces[i]? = some s ∧ EndsUppercase s.toList
  starts : ∃ t, pieces[j]? = some t ∧ StartsUppercase t.toList
  between : ∀ k, i < k → k < j → pieces[k]? = some ""

/-- A join begins as the first of its pieces that is not empty. -/
theorem startsUppercase_join (pieces : List String) :
    StartsUppercase (String.join pieces).toList ↔
      ∃ (j : Nat) (t : String), pieces[j]? = some t ∧ StartsUppercase t.toList ∧
        ∀ k < j, pieces[k]? = some "" := by
  induction pieces with
  | nil => simp
  | cons s r ih =>
    have hcons : (∃ (j : Nat) (t : String), (s :: r)[j]? = some t ∧ StartsUppercase t.toList ∧
        ∀ k < j, (s :: r)[k]? = some "") ↔
        StartsUppercase s.toList ∨ s = "" ∧ StartsUppercase (String.join r).toList := by
      rw [ih]
      constructor
      · rintro ⟨_ | j, t, ht, hs, hb⟩
        · cases ht
          exact .inl hs
        · have hempty : s = "" := Option.some.inj (hb 0 (Nat.succ_pos j))
          exact .inr ⟨hempty, j, t, ht, hs, fun k hk => hb (k + 1) (Nat.succ_lt_succ hk)⟩
      · rintro (hs | ⟨rfl, j, t, ht, hs, hb⟩)
        · exact ⟨0, s, rfl, hs, fun k hk => absurd hk k.not_lt_zero⟩
        · refine ⟨j + 1, t, ht, hs, ?_⟩
          rintro (_ | k) hk
          · rfl
          · exact hb k (Nat.lt_of_succ_lt_succ hk)
    rw [hcons, String.join_cons, String.toList_append]
    cases hs : s.toList with
    | nil =>
      obtain rfl : s = "" := by simpa using hs
      simp
    | cons c cs =>
      have hne : s ≠ "" := by
        rintro rfl
        cases hs
      simp [hne]

theorem meetUppercase_zero (s : String) (r : List String) :
    (∃ j, MeetUppercase (s :: r) 0 j) ↔
      EndsUppercase s.toList ∧ StartsUppercase (String.join r).toList := by
  rw [startsUppercase_join]
  constructor
  · rintro ⟨_ | j, hlt, ⟨_, ⟨rfl⟩, he⟩, ⟨t, ht, hs⟩, hb⟩
    · cases hlt
    · refine ⟨he, j, t, ht, hs, fun k hk => ?_⟩
      exact hb (k + 1) (by omega) (by omega)
  · rintro ⟨he, j, t, ht, hs, hb⟩
    refine ⟨j + 1, by omega, ⟨s, rfl, he⟩, ⟨t, ht, hs⟩, ?_⟩
    rintro (_ | k) hk hj
    · cases hk
    · exact hb k (by omega)

theorem meetUppercase_succ (s : String) (r : List String) (i : Nat) :
    (∃ j, MeetUppercase (s :: r) (i + 1) j) ↔ ∃ j, MeetUppercase r i j := by
  constructor
  · rintro ⟨_ | j, hlt, he, hs, hb⟩
    · cases hlt
    · exact ⟨j, by omega, he, hs, fun k hk hj => hb (k + 1) (by omega) (by omega)⟩
  · rintro ⟨j, hlt, he, hs, hb⟩
    refine ⟨j + 1, by omega, he, hs, ?_⟩
    rintro (_ | k) hk hj
    · cases hk
    · exact hb k (by omega) (by omega)

theorem classify_join_eq_rejected_iff (pieces : List String) :
    classify (String.join pieces) = .rejected ↔
      (∃ s ∈ pieces, classify s = .rejected) ∨ ∃ i j, MeetUppercase pieces i j := by
  simp only [classify_eq_rejected_iff_pair]
  induction pieces with
  | nil =>
    have hmeet : ∀ i j, ¬ MeetUppercase [] i j := by
      rintro i j ⟨-, ⟨s, hs, -⟩, -, -⟩
      cases hs
    simp [not_hasUppercasePair_nil, hmeet]
  | cons s r ih =>
    have hmeet : (∃ i j, MeetUppercase (s :: r) i j) ↔
        (EndsUppercase s.toList ∧ StartsUppercase (String.join r).toList) ∨
          ∃ i j, MeetUppercase r i j := by
      rw [← Nat.or_exists_add_one, meetUppercase_zero]
      simp only [meetUppercase_succ]
    rw [String.join_cons, String.toList_append, hasUppercasePair_append, ih, hmeet,
      List.exists_mem_cons_iff, or_assoc]
    exact or_congr_right or_left_comm

theorem classify_between_eq_rejected_iff (before after : String) (c : Char) :
    classify (before ++ String.singleton c ++ after) = .rejected ↔
      (classify before = .rejected ∨ classify after = .rejected) ∨
        isUppercase c = true ∧ (EndsUppercase before.toList ∨ StartsUppercase after.toList) := by
  have hone : ¬ HasUppercasePair [c] := by simp [hasUppercasePair_cons, not_hasUppercasePair_nil]
  simp only [classify_eq_rejected_iff_pair, String.toList_append, String.toList_singleton,
    hasUppercasePair_append, endsUppercase_concat, startsUppercase_cons, hone]
  tauto

/-- A join is rejected because of one of its pieces or because two of them meet in a pair. So of
the characters that may stand between two texts, all make a rejected name, or exactly the
uppercase ones do, or none. -/
theorem classify_concatenation (pieces : List String) (before after : String) :
    (classify (String.join pieces) = .rejected ↔
      (∃ s ∈ pieces, classify s = .rejected) ∨ ∃ i j, MeetUppercase pieces i j) ∧
    ((∀ c, classify (before ++ String.singleton c ++ after) = .rejected) ∨
      (∀ c, classify (before ++ String.singleton c ++ after) = .rejected ↔
        isUppercase c = true) ∨
      ∀ c, classify (before ++ String.singleton c ++ after) = .accepted) := by
  refine ⟨classify_join_eq_rejected_iff pieces, ?_⟩
  have haccepted : ∀ name, classify name ≠ .rejected → classify name = .accepted := by
    intro name h
    cases hc : classify name with
    | accepted => rfl
    | rejected => exact absurd hc h
  by_cases hparts : classify before = .rejected ∨ classify after = .rejected
  · exact .inl fun c => (classify_between_eq_rejected_iff before after c).mpr (.inl hparts)
  · by_cases hborder : EndsUppercase before.toList ∨ StartsUppercase after.toList
    · refine .inr (.inl fun c => ?_)
      simp only [classify_between_eq_rejected_iff, hparts, hborder, false_or, and_true]
    · refine .inr (.inr fun c => haccepted _ ?_)
      simp only [ne_eq, classify_between_eq_rejected_iff, hparts, hborder, false_or, and_false,
        not_false_eq_true]

example : classify (String.join ["myX", "", "", "Ml"]) = .rejected := by decide +kernel

end CamelLint.Casing
