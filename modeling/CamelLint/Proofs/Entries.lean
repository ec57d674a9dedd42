import CamelLint.Entries
import Mathlib.Data.String.Basic
import Mathlib.Data.List.Induction

/-! Entries as maps. Whatever the writes, each key that was written is there once, in
ascending order, with the value of the last write under it. -/

namespace CamelLint.Entries

variable {α : Type}

/-- The value of the last write under a key. -/
def lastValue? (key : String) (writes : List (String × α)) : Option α :=
  (writes.reverse.find? (·.1 = key)).map (·.2)

def Ascending (m : Entries α) : Prop := (m.map (·.1)).Pairwise (· < ·)

instance (m : Entries α) : Decidable m.Ascending :=
  inferInstanceAs (Decidable ((m.map (·.1)).Pairwise (· < ·)))

/-- The entries are the map from the keys of the writes to their last values. -/
structure HoldsLast (m : Entries α) (writes : List (String × α)) : Prop where
  ascending : m.Ascending
  get?_eq : ∀ key, get? key m = lastValue? key writes

theorem lastValue?_concat (key : String) (writes : List (String × α)) (w : String × α) :
    lastValue? key (writes ++ [w]) = if key = w.1 then some w.2 else lastValue? key writes := by
  rw [lastValue?, List.reverse_concat]
  by_cases h : key = w.1
  · rw [List.find?_cons_of_pos (by simp [h]), if_pos h, Option.map_some]
  · rw [List.find?_cons_of_neg (by simp [Ne.symm h]), if_neg h]
    rfl

theorem ofList_concat (writes : List (String × α)) (w : String × α) :
    ofList (writes ++ [w]) = insert w.1 w.2 (ofList writes) := by
  rw [ofList, List.foldl_concat]
  rfl

theorem get?_ofList (key : String) (writes : List (String × α)) :
    get? key (ofList writes) = lastValue? key writes := by
  induction writes using List.reverseRecOn with
  | nil => rfl
  | append_singleton writes w ih =>
    rw [ofList_concat, get?_insert, ih, lastValue?_concat]

/-! ### Members -/

theorem mem_of_get?_eq_some {key : String} {value : α} {m : Entries α}
    (h : get? key m = some value) : (key, value) ∈ m := by
  induction m with
  | nil => cases h
  | cons e r ih =>
    rw [get?] at h
    split_ifs at h with hk
    · cases h
      rw [hk]
      exact List.mem_cons_self
    · exact List.mem_cons_of_mem e (ih h)

/-- In entries of distinct keys, each is found under its key. -/
theorem get?_eq_some_iff {m : Entries α} (h : (m.map (·.1)).Nodup) {key : String} {value : α} :
    get? key m = some value ↔ (key, value) ∈ m := by
  refine ⟨mem_of_get?_eq_some, ?_⟩
  intro hm
  induction m with
  | nil => cases hm
  | cons e r ih =>
    rw [List.map_cons, List.nodup_cons] at h
    rw [get?]
    rcases List.mem_cons.mp hm with rfl | hm
    · exact if_pos rfl
    · have hne : key ≠ e.1 := by
        rintro rfl
        exact h.1 (List.mem_map.mpr ⟨_, hm, rfl⟩)
      rw [if_neg hne, ih h.2 hm]

theorem mem_insert {key : String} {value : α} {m : Entries α} {e : String × α}
    (h : e ∈ insert key value m) : e = (key, value) ∨ e ∈ m := by
  induction m with
  | nil => exact .inl (List.mem_singleton.mp h)
  | cons d r ih =>
    rw [insert] at h
    split_ifs at h with he hl
    · rcases List.mem_cons.mp h with h | h
      · exact .inl h
      · exact .inr (List.mem_cons_of_mem _ h)
    · exact List.mem_cons.mp h
    · rcases List.mem_cons.mp h with rfl | h
      · exact .inr List.mem_cons_self
      · exact (ih h).imp_right (List.mem_cons_of_mem _)

theorem keys_insert_subset {key k : String} {value : α} {m : Entries α}
    (h : k ∈ (insert key value m).map (·.1)) : k = key ∨ k ∈ m.map (·.1) := by
  obtain ⟨e, he, rfl⟩ := List.mem_map.mp h
  rcases mem_insert he with rfl | he
  · exact .inl rfl
  · exact .inr (List.mem_map_of_mem he)

/-! ### Order -/

theorem Ascending.insert {m : Entries α} (h : m.Ascending) (key : String) (value : α) :
    (insert key value m).Ascending := by
  induction m with
  | nil => exact List.pairwise_singleton _ _
  | cons e r ih =>
    obtain ⟨hlt, hr⟩ := List.pairwise_cons.mp h
    rw [Entries.insert]
    split_ifs with he hl
    · rw [he]
      exact h
    · refine List.pairwise_cons.mpr ⟨?_, h⟩
      intro k hk
      rcases List.mem_cons.mp hk with rfl | hk
      · exact hl
      · exact hl.trans (hlt k hk)
    · refine List.pairwise_cons.mpr ⟨?_, ih hr⟩
      intro k hk
      rcases keys_insert_subset hk with rfl | hk
      · exact lt_of_le_of_ne (not_lt.mp hl) (Ne.symm he)
      · exact hlt k hk

theorem ascending_ofList (writes : List (String × α)) : (ofList writes).Ascending := by
  induction writes using List.reverseRecOn with
  | nil => exact .nil
  | append_singleton writes w ih =>
    rw [ofList_concat]
    exact ih.insert w.1 w.2

theorem holdsLast_ofList (writes : List (String × α)) : HoldsLast (ofList writes) writes :=
  ⟨ascending_ofList writes, fun key => get?_ofList key writes⟩

/-! ### Distinct keys -/

theorem get?_eq_none {key : String} {m : Entries α} (h : key ∉ m.map (·.1)) :
    get? key m = none := by
  induction m with
  | nil => rfl
  | cons e r ih =>
    rw [List.map_cons, List.mem_cons, not_or] at h
    rw [get?, if_neg h.1, ih h.2]

theorem get?_eq_none_iff {key : String} {m : Entries α} :
    get? key m = none ↔ key ∉ m.map (·.1) := by
  refine ⟨?_, get?_eq_none⟩
  intro h hm
  induction m with
  | nil => cases hm
  | cons e r ih =>
    rw [get?] at h
    split_ifs at h with hk
    rcases List.mem_cons.mp hm with rfl | hm
    · exact hk rfl
    · exact ih h hm

theorem perm_insert {key : String} {m : Entries α} (h : key ∉ m.map (·.1)) (value : α) :
    (insert key value m).Perm ((key, value) :: m) := by
  induction m with
  | nil => exact .rfl
  | cons e r ih =>
    rw [List.map_cons, List.mem_cons, not_or] at h
    rw [insert, if_neg h.1]
    split_ifs with hl
    · exact .rfl
    · exact ((ih h.2).cons e).trans (.swap _ _ r)

theorem keys_ofList_subset {k : String} {writes : List (String × α)}
    (h : k ∈ (ofList writes).map (·.1)) : k ∈ writes.map (·.1) := by
  induction writes using List.reverseRecOn with
  | nil => exact h
  | append_singleton writes w ih =>
    rw [ofList_concat] at h
    rw [List.map_append, List.mem_append]
    rcases keys_insert_subset h with rfl | h
    · exact .inr (List.mem_singleton.mpr rfl)
    · exact .inl (ih h)

/-- The last of writes under distinct keys is under a new one. -/
theorem last_not_mem {writes : List (String × α)} {w : String × α}
    (h : ((writes ++ [w]).map (·.1)).Nodup) :
    (writes.map (·.1)).Nodup ∧ w.1 ∉ (ofList writes).map (·.1) := by
  rw [List.map_append, List.nodup_append] at h
  obtain ⟨hwrites, -, hnew⟩ := h
  refine ⟨hwrites, ?_⟩
  intro hm
  exact hnew w.1 (keys_ofList_subset hm) w.1 (List.mem_singleton.mpr rfl) rfl

/-- Writes under distinct keys are all there. -/
theorem perm_ofList {writes : List (String × α)} (h : (writes.map (·.1)).Nodup) :
    (ofList writes).Perm writes := by
  induction writes using List.reverseRecOn with
  | nil => exact .rfl
  | append_singleton writes w ih =>
    obtain ⟨hwrites, hw⟩ := last_not_mem h
    rw [ofList_concat]
    exact ((perm_insert hw w.2).trans ((ih hwrites).cons w)).trans
      (List.perm_append_singleton w writes).symm

theorem Ascending.nodup {m : Entries α} (h : m.Ascending) : (m.map (·.1)).Nodup :=
  h.imp ne_of_lt

/-- Entries in ascending order are what they are written to, in whatever order that is done. -/
theorem Ascending.ofList_eq {m : Entries α} (h : m.Ascending) {writes : List (String × α)}
    (hp : writes.Perm m) : ofList writes = m := by
  have hnodup : (writes.map (·.1)).Nodup := (hp.map _).nodup_iff.mpr h.nodup
  have hwrites := List.pairwise_map.mp (ascending_ofList writes)
  have hperm : (ofList writes).Perm m := (perm_ofList hnodup).trans hp
  refine List.Perm.eq_of_pairwise ?_ hwrites (List.pairwise_map.mp h) hperm
  intro a b _ _ hab hba
  exact absurd hba hab.asymm

end CamelLint.Entries
