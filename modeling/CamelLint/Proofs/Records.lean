import Mathlib.Data.List.Nodup

/-! Records that are read member by member, each member setting at most one field of what
is read so far. If names are distinct, a field has the value of its member, wherever
the member stands; reading succeeds if every member can be read, and fails as the first
one that cannot. -/

namespace CamelLint

theorem bind_eq_ok_iff {ε α β : Type} {x : Except ε α} {f : α → Except ε β} {b : β} :
    (x >>= f) = .ok b ↔ ∃ a, x = .ok a ∧ f a = .ok b := by
  cases x with
  | error e => simp [bind, Except.bind]
  | ok a => simp [bind, Except.bind]

variable {ε S V α : Type} {read : S → String × V → Except ε S} {name : String}
  {decode : V → Except ε α} {get : S → Option α} {members : List (String × V)}

/-- Members of this name set one field, to what they decode to, and no others set it. -/
structure SetsField (read : S → String × V → Except ε S) (name : String)
    (decode : V → Except ε α) (get : S → Option α) : Prop where
  own : ∀ {s v s'}, read s (name, v) = .ok s' → ∃ a, decode v = .ok a ∧ get s' = some a
  other : ∀ {s m s'}, m.1 ≠ name → read s m = .ok s' → get s' = get s

/-- A field that no member is for stays as it is. -/
theorem SetsField.get_of_not_mem (h : SetsField read name decode get) {s s' : S}
    (hf : members.foldlM read s = .ok s') (hn : name ∉ members.map (·.1)) : get s' = get s := by
  induction members generalizing s with
  | nil =>
    cases hf
    rfl
  | cons m r ih =>
    rw [List.map_cons, List.mem_cons, not_or] at hn
    rw [List.foldlM_cons, bind_eq_ok_iff] at hf
    obtain ⟨first, hm, hr⟩ := hf
    rw [ih hr hn.2, h.other (Ne.symm hn.1) hm]

/-- A field has the value of its member, of which there is at most one. -/
theorem SetsField.get_of_mem (h : SetsField read name decode get)
    (hd : (members.map (·.1)).Nodup) {s s' : S} (hf : members.foldlM read s = .ok s') {v : V}
    (hv : (name, v) ∈ members) : ∃ a, decode v = .ok a ∧ get s' = some a := by
  induction members generalizing s with
  | nil => cases hv
  | cons m r ih =>
    rw [List.map_cons, List.nodup_cons] at hd
    rw [List.foldlM_cons, bind_eq_ok_iff] at hf
    obtain ⟨first, hm, hr⟩ := hf
    rcases List.mem_cons.mp hv with rfl | hv
    · obtain ⟨a, ha, hget⟩ := h.own hm
      exact ⟨a, ha, (h.get_of_not_mem hr hd.1).trans hget⟩
    · exact ih hd.2 hr hv

theorem SetsField.get_eq_some_iff (h : SetsField read name decode get)
    (hd : (members.map (·.1)).Nodup) {s s' : S} (hf : members.foldlM read s = .ok s')
    (hs : get s = none) {a : α} :
    get s' = some a ↔ ∃ v, (name, v) ∈ members ∧ decode v = .ok a := by
  constructor
  · intro ha
    by_cases hn : name ∈ members.map (·.1)
    · obtain ⟨⟨_, v⟩, hv, rfl⟩ := List.mem_map.mp hn
      obtain ⟨b, hb, hget⟩ := h.get_of_mem hd hf hv
      rw [ha] at hget
      cases hget
      exact ⟨v, hv, hb⟩
    · rw [h.get_of_not_mem hf hn, hs] at ha
      cases ha
  · rintro ⟨v, hv, ha⟩
    obtain ⟨b, hb, hget⟩ := h.get_of_mem hd hf hv
    rw [ha] at hb
    cases hb
    exact hget

/-- A field that was not set is set exactly if a member is for it. -/
theorem SetsField.get_eq_none_iff (h : SetsField read name decode get)
    (hd : (members.map (·.1)).Nodup) {s s' : S} (hf : members.foldlM read s = .ok s')
    (hs : get s = none) : get s' = none ↔ name ∉ members.map (·.1) := by
  constructor
  · intro hnone hn
    obtain ⟨⟨_, v⟩, hv, rfl⟩ := List.mem_map.mp hn
    obtain ⟨a, -, hget⟩ := h.get_of_mem hd hf hv
    rw [hnone] at hget
    cases hget
  · intro hn
    rw [h.get_of_not_mem hf hn, hs]

/-- Members that can all be read are read to their end. -/
theorem foldlM_read_ok (h : ∀ m ∈ members, ∀ s, ∃ s', read s m = .ok s') (s : S) :
    ∃ s', members.foldlM read s = .ok s' := by
  induction members generalizing s with
  | nil => exact ⟨s, rfl⟩
  | cons m r ih =>
    obtain ⟨first, hm⟩ := h m List.mem_cons_self s
    obtain ⟨s', hr⟩ := ih (fun n hn => h n (List.mem_cons_of_mem m hn)) first
    exact ⟨s', by rw [List.foldlM_cons, hm]; exact hr⟩

/-- Whatever is read to its end has members that can be read. -/
theorem exists_read_of_foldlM {s s' : S} (hf : members.foldlM read s = .ok s') {m : String × V}
    (hm : m ∈ members) : ∃ r r', read r m = .ok r' := by
  induction members generalizing s with
  | nil => cases hm
  | cons n rest ih =>
    rw [List.foldlM_cons, bind_eq_ok_iff] at hf
    obtain ⟨first, hn, hr⟩ := hf
    rcases List.mem_cons.mp hm with rfl | hm
    · exact ⟨s, first, hn⟩
    · exact ih hr hm

/-- What went wrong, if anything did. -/
def errorOf? : Except ε α → Option ε
  | .ok _ => none
  | .error e => some e

@[simp] theorem errorOf?_ok (a : α) : errorOf? (.ok a : Except ε α) = none := rfl

@[simp] theorem errorOf?_error (e : ε) : errorOf? (.error e : Except ε α) = some e := rfl

theorem errorOf?_bind {β : Type} {x : Except ε α} {next : α → Except ε β} {rest : Option ε}
    (h : ∀ a, errorOf? (next a) = rest) : errorOf? (x >>= next) = (errorOf? x).or rest := by
  cases x with
  | error e => rfl
  | ok a => exact h a

theorem errorOf?_bind_pure {β : Type} (x : Except ε α) (f : α → β) :
    errorOf? (x >>= fun a => pure (f a)) = errorOf? x := by
  cases x <;> rfl

theorem errorOf?_eq_some_iff {x : Except ε α} {e : ε} : errorOf? x = some e ↔ x = .error e := by
  cases x <;> simp

/-- If what is wrong with a member does not depend on what is read before it, reading fails at
the first member with which something is wrong. -/
theorem errorOf?_foldlM {wrong? : String × V → Option ε}
    (h : ∀ s m, errorOf? (read s m) = wrong? m) (s : S) :
    errorOf? (members.foldlM read s) = members.findSome? wrong? := by
  induction members generalizing s with
  | nil => rfl
  | cons m r ih =>
    rw [List.foldlM_cons, List.findSome?_cons, ← h s m]
    cases read s m with
    | error e => rfl
    | ok s' => exact ih s'

/-- Members that change nothing may be left out. -/
theorem foldlM_filter_eq {known : String × V → Bool}
    (h : ∀ s m, known m = false → read s m = .ok s) (s : S) :
    (members.filter known).foldlM read s = members.foldlM read s := by
  rw [List.foldlM_filter]
  congr 1
  funext s m
  cases hk : known m with
  | true => rfl
  | false => exact (h s m hk).symm

/-- Distinct names make a member the only one of its name. -/
theorem eq_of_mem_of_nodup (hd : (members.map (·.1)).Nodup) {v w : V}
    (hv : (name, v) ∈ members) (hw : (name, w) ∈ members) : v = w :=
  congrArg Prod.snd (List.inj_on_of_nodup_map hd hv hw rfl)

end CamelLint
