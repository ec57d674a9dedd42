import CamelLint.Proofs.Entries
import CamelLint.Toml.Document

/-! Tables are maps. In the table that a document defines, and in all tables in it, the keys
are in ascending order and each is there once. Every change that a statement or a header
makes to a table keeps this, and so does every step of the reader. -/

namespace CamelLint.Toml

/-- The first value stands somewhere in the second, or is the second. -/
inductive Occurs (u : Value) : Value → Prop where
  | self : Occurs u u
  | item {v : Value} {items : List Value} {byHeaders : Bool} (hv : v ∈ items) (h : Occurs u v) :
      Occurs u (.array items byHeaders)
  | entry {e : String × Value} {origin : Origin} {entries : Entries Value} (he : e ∈ entries)
      (h : Occurs u e.2) : Occurs u (.table origin entries)

/-- All tables in the value have ascending keys. -/
def Value.IsOrdered (v : Value) : Prop :=
  ∀ origin entries, Occurs (.table origin entries) v → Entries.Ascending entries

/-- The entries of a table that is ordered all the way down. -/
structure OrderedEntries (m : Entries Value) : Prop where
  ascending : m.Ascending
  values : ∀ e ∈ m, e.2.IsOrdered

/-! ### Values -/

@[simp] theorem occurs_array_iff {u : Value} {items : List Value} {byHeaders : Bool} :
    Occurs u (.array items byHeaders) ↔ u = .array items byHeaders ∨ ∃ v ∈ items, Occurs u v := by
  constructor
  · rintro (_ | ⟨hv, h⟩)
    · exact .inl rfl
    · exact .inr ⟨_, hv, h⟩
  · rintro (rfl | ⟨v, hv, h⟩)
    · exact .self
    · exact .item hv h

@[simp] theorem occurs_table_iff {u : Value} {origin : Origin} {entries : Entries Value} :
    Occurs u (.table origin entries) ↔
      u = .table origin entries ∨ ∃ e ∈ entries, Occurs u e.2 := by
  constructor
  · rintro (_ | _ | ⟨he, h⟩)
    · exact .inl rfl
    · exact .inr ⟨_, he, h⟩
  · rintro (rfl | ⟨e, he, h⟩)
    · exact .self
    · exact .entry he h

namespace Value

theorem isOrdered_table {origin : Origin} {m : Entries Value} :
    (table origin m).IsOrdered ↔ OrderedEntries m := by
  constructor
  · intro h
    exact ⟨h origin m .self, fun e he o n hocc => h o n (.entry he hocc)⟩
  · intro h o n hocc
    cases hocc with
    | self => exact h.ascending
    | entry he hocc => exact h.values _ he o n hocc

theorem isOrdered_array {items : List Value} {byHeaders : Bool} :
    (array items byHeaders).IsOrdered ↔ ∀ v ∈ items, v.IsOrdered := by
  constructor
  · intro h v hv o n hocc
    exact h o n (.item hv hocc)
  · intro h o n hocc
    cases hocc with
    | item hv hocc => exact h _ hv o n hocc

/-- Neither an array nor a table. -/
structure IsScalar (v : Value) : Prop where
  ne_array : ∀ items byHeaders, v ≠ array items byHeaders
  ne_table : ∀ origin m, v ≠ table origin m

@[simp] theorem IsScalar.occurs_iff {u v : Value} (h : v.IsScalar) : Occurs u v ↔ u = v := by
  constructor
  · intro hocc
    cases hocc with
    | self => rfl
    | item hv hocc => exact absurd rfl (h.ne_array _ _)
    | entry he hocc => exact absurd rfl (h.ne_table _ _)
  · rintro rfl
    exact .self

theorem IsScalar.isOrdered {v : Value} (h : v.IsScalar) : v.IsOrdered := by
  intro o n hocc
  exact absurd (h.occurs_iff.mp hocc).symm (h.ne_table o n)

@[simp] theorem isScalar_string (s : String) : (string s).IsScalar := by constructor <;> simp

@[simp] theorem isScalar_integer (n : Int) : (integer n).IsScalar := by constructor <;> simp

@[simp] theorem isScalar_badInteger : badInteger.IsScalar := by constructor <;> simp

@[simp] theorem isScalar_hugeFloat : hugeFloat.IsScalar := by constructor <;> simp

theorem isScalar_ofInt (n : Int) : (ofInt n).IsScalar := by
  unfold ofInt
  split_ifs <;> simp

end Value

theorem isScalar_of_inBase? {base : Nat} {digits : List Char} {v : Value}
    (h : inBase? base digits = some v) : v.IsScalar := by
  unfold inBase? at h
  split_ifs at h
  · cases h
    exact Value.isScalar_badInteger
  · obtain ⟨d, -, rfl⟩ := Option.map_eq_some_iff.mp h
    exact Value.isScalar_ofInt (Text.ofDigits base d)

theorem isScalar_of_integer? {s : List Char} {v : Value} (h : integer? s = some v) :
    v.IsScalar := by
  unfold integer? at h
  split at h
  · exact isScalar_of_inBase? h
  · exact isScalar_of_inBase? h
  · exact isScalar_of_inBase? h
  · obtain ⟨d, -, rfl⟩ := Option.map_eq_some_iff.mp h
    split_ifs
    · exact Value.isScalar_ofInt _
    · exact Value.isScalar_badInteger

theorem isScalar_of_float? {s : List Char} {v : Value} (h : float? s = some v) : v.IsScalar := by
  unfold float? at h
  dsimp only at h
  split at h
  · cases h
    constructor <;> simp
  · split at h
    · cases h
      constructor <;> simp
    · obtain ⟨whole, -, h⟩ := Option.bind_eq_some_iff.mp h
      obtain ⟨fraction, -, h⟩ := Option.bind_eq_some_iff.mp h
      obtain ⟨scale, -, h⟩ := Option.bind_eq_some_iff.mp h
      split at h <;> cases h <;> constructor <;> simp

/-- What is written as words is no array and no table. -/
theorem isScalar_of_scalar? {s : List Char} {v : Value} (h : scalar? s = some v) : v.IsScalar := by
  unfold scalar? at h
  split at h
  · cases h
    constructor <;> simp
  · split at h
    · cases h
      constructor <;> simp
    · split at h
      · next hn =>
        cases h
        exact isScalar_of_integer? hn
      · split at h
        · next hx =>
          cases h
          exact isScalar_of_float? hx
        · obtain ⟨d, -, rfl⟩ := Option.map_eq_some_iff.mp h
          constructor <;> simp

/-! ### Changes of tables -/

namespace OrderedEntries

variable {m : Entries Value} {key : String} {v : Value}

theorem nil : OrderedEntries [] := ⟨.nil, by simp⟩

theorem insert (h : OrderedEntries m) (key : String) (hv : v.IsOrdered) :
    OrderedEntries (Entries.insert key v m) := by
  refine ⟨h.ascending.insert key v, ?_⟩
  intro e he
  rcases Entries.mem_insert he with rfl | he
  · exact hv
  · exact h.values e he

theorem of_get? (h : OrderedEntries m) (hg : Entries.get? key m = some v) : v.IsOrdered :=
  h.values _ (Entries.mem_of_get?_eq_some hg)

end OrderedEntries

/-- The change leaves ordered tables ordered. -/
def KeepsOrder (change : Change) : Prop :=
  ∀ {origin m new}, OrderedEntries m → change origin m = some new → OrderedEntries new

/-- A fold keeps what each of its steps keeps. -/
theorem foldlM_keeps {α β : Type} {P : β → Prop} {f : β → α → Option β} {xs : List α}
    (h : ∀ x ∈ xs, ∀ b b', P b → f b x = some b' → P b') {b b' : β} (hb : P b)
    (hf : xs.foldlM f b = some b') : P b' := by
  induction xs generalizing b with
  | nil =>
    cases hf
    exact hb
  | cons x r ih =>
    rw [List.foldlM_cons] at hf
    obtain ⟨c, hc, hr⟩ := Option.bind_eq_some_iff.mp hf
    exact ih (fun y hy => h y (List.mem_cons_of_mem x hy)) (h x List.mem_cons_self b c hb hc) hr

theorem keepsOrder_follow {change : Change} (hc : KeepsOrder change) (dotted : Bool)
    (path : List String) : KeepsOrder (follow dotted change path) := by
  induction path with
  | nil => exact hc
  | cons key path ih =>
    intro origin m new hm h
    unfold follow at h
    split at h
    · obtain ⟨t, ht, rfl⟩ := Option.map_eq_some_iff.mp h
      exact hm.insert key (Value.isOrdered_table.mpr (ih .nil ht))
    · rename_i hg
      split_ifs at h
      obtain ⟨t, ht, rfl⟩ := Option.map_eq_some_iff.mp h
      have hold := Value.isOrdered_table.mp (hm.of_get? hg)
      exact hm.insert key (Value.isOrdered_table.mpr (ih hold ht))
    · rename_i items hg
      split at h
      · rename_i hlast
        obtain ⟨t, ht, rfl⟩ := Option.map_eq_some_iff.mp h
        have hitems := Value.isOrdered_array.mp (hm.of_get? hg)
        have hold := Value.isOrdered_table.mp (hitems _ (List.mem_of_mem_getLast? hlast))
        refine hm.insert key (Value.isOrdered_array.mpr ?_)
        intro v hv
        rcases List.mem_append.mp hv with hv | hv
        · exact hitems v (List.dropLast_subset items hv)
        · rw [List.mem_singleton.mp hv]
          exact Value.isOrdered_table.mpr (ih hold ht)
      · cases h
    · cases h

theorem keepsOrder_define (dotted : Bool) (key : String) {v : Value} (hv : v.IsOrdered) :
    KeepsOrder (define dotted key v) := by
  intro origin m new hm h
  unfold define at h
  split_ifs at h
  split at h
  · cases h
    exact hm.insert key hv
  · cases h

theorem orderedEntries_addStatement {origin : Origin} {m new : Entries Value}
    {s : List String × Value} (hm : OrderedEntries m) (hs : s.2.IsOrdered)
    (h : addStatement origin m s = some new) : OrderedEntries new := by
  unfold addStatement at h
  split at h
  · cases h
  · exact keepsOrder_follow (keepsOrder_define _ _ hs) _ _ hm h

/-- All values in the section are ordered. -/
def Section.IsOrdered (s : Section) : Prop := ∀ st ∈ s.statements, st.2.IsOrdered

theorem Section.IsOrdered.foldlM {s : Section} (h : s.IsOrdered) {m new : Entries Value}
    (hm : OrderedEntries m) (hf : s.statements.foldlM (addStatement .header) m = some new) :
    OrderedEntries new :=
  foldlM_keeps (fun st hst _ _ hb => orderedEntries_addStatement hb (h st hst)) hm hf

theorem Section.IsOrdered.keepsOrder_place {s : Section} (h : s.IsOrdered) (key : String) :
    KeepsOrder (s.place key) := by
  intro origin m new hm hp
  unfold place at hp
  split at hp
  · obtain ⟨t, ht, hp⟩ := Option.bind_eq_some_iff.mp hp
    cases hp
    exact hm.insert key (Value.isOrdered_table.mpr (h.foldlM .nil ht))
  · rename_i hg
    obtain ⟨t, ht, hp⟩ := Option.bind_eq_some_iff.mp hp
    cases hp
    have hold := Value.isOrdered_table.mp (hm.of_get? hg)
    exact hm.insert key (Value.isOrdered_table.mpr (h.foldlM hold ht))
  · obtain ⟨t, ht, hp⟩ := Option.bind_eq_some_iff.mp hp
    cases hp
    have hnew : (Value.table .header t).IsOrdered := Value.isOrdered_table.mpr (h.foldlM .nil ht)
    exact hm.insert key (Value.isOrdered_array.mpr (List.forall_mem_singleton.mpr hnew))
  · rename_i hg
    obtain ⟨t, ht, hp⟩ := Option.bind_eq_some_iff.mp hp
    cases hp
    have hitems := Value.isOrdered_array.mp (hm.of_get? hg)
    have hnew : (Value.table .header t).IsOrdered := Value.isOrdered_table.mpr (h.foldlM .nil ht)
    exact hm.insert key (Value.isOrdered_array.mpr
      (List.forall_mem_append.mpr ⟨hitems, List.forall_mem_singleton.mpr hnew⟩))
  · cases hp

/-- The table that sections define is ordered if their values are. -/
theorem orderedEntries_ofSections {sections : List Section} (h : ∀ s ∈ sections, s.IsOrdered)
    {root : Entries Value} (hr : ofSections sections = some root) : OrderedEntries root := by
  refine foldlM_keeps ?_ .nil hr
  intro s hs m new hm hadd
  unfold addSection at hadd
  split at hadd
  · exact (h s hs).foldlM hm hadd
  · exact keepsOrder_follow ((h s hs).keepsOrder_place _) _ _ hm hadd

/-! ### The reader -/

def Frame.IsOrdered : Frame → Prop
  | .line _ => True
  | .array items => ∀ v ∈ items, v.IsOrdered
  | .inline entries _ => OrderedEntries entries

def Expecting.IsOrdered : Expecting → Prop
  | .inlineKey entries _ | .inlineEquals entries _ | .inlineStart entries | .inlineNext entries =>
    OrderedEntries entries
  | .item items | .itemNext items => ∀ v ∈ items, v.IsOrdered
  | .value owner | .scalar _ owner | .scalarBlank _ _ owner => owner.IsOrdered
  | _ => True

structure Progress.IsOrdered (p : Progress) : Prop where
  finished : ∀ s ∈ p.finished, s.IsOrdered
  current : p.current.IsOrdered
  stack : ∀ f ∈ p.stack, f.IsOrdered

theorem Progress.IsOrdered.sections {p : Progress} (hp : p.IsOrdered) :
    ∀ s ∈ p.sections, s.IsOrdered := by
  intro s hs
  obtain ⟨s', hs', rfl⟩ := List.mem_map.mp hs
  have h : s'.IsOrdered :=
    List.forall_mem_cons.mpr ⟨hp.current, hp.finished⟩ s' (List.mem_reverse.mp hs')
  exact fun st hst => h st (List.mem_reverse.mp hst)

/-- All that the reader has read so far is ordered. -/
def Reading.IsOrdered : Reading → Prop
  | .reading e p => e.IsOrdered ∧ p.IsOrdered
  | .broken => True

namespace Reading

open Expecting

variable {e : Expecting} {p : Progress} {v : Value} {owner : Frame}

theorem isOrdered_complete (hp : p.IsOrdered) (hv : v.IsOrdered) (ho : owner.IsOrdered) :
    (complete p v owner).IsOrdered := by
  cases owner with
  | line path =>
    exact ⟨trivial, hp.finished, List.forall_mem_cons.mpr ⟨hv, hp.current⟩, hp.stack⟩
  | array items => exact ⟨List.forall_mem_cons.mpr ⟨hv, ho⟩, hp⟩
  | inline entries path =>
    simp only [complete]
    split
    · next h => exact ⟨orderedEntries_addStatement ho hv h, hp⟩
    · trivial

theorem isOrdered_close (hp : p.IsOrdered) (hv : v.IsOrdered) : (close p v).IsOrdered := by
  unfold close
  split
  · trivial
  · next f r hs =>
    obtain ⟨hf, hr⟩ := List.forall_mem_cons.mp (hs ▸ hp.stack)
    exact isOrdered_complete ⟨hp.finished, hp.current, hr⟩ hv hf

theorem isOrdered_enter (hp : p.IsOrdered) (ho : owner.IsOrdered) (he : e.IsOrdered) :
    (enter p owner e).IsOrdered := by
  unfold enter
  split_ifs
  · exact ⟨he, hp.finished, hp.current, List.forall_mem_cons.mpr ⟨ho, hp.stack⟩⟩
  · trivial

theorem isOrdered_endScalar (hp : p.IsOrdered) (ho : owner.IsOrdered) (text : List Char) :
    (endScalar p text owner).IsOrdered := by
  unfold endScalar
  split
  · next h => exact isOrdered_complete hp (isScalar_of_scalar? h).isOrdered ho
  · trivial

theorem isOrdered_stepValue (hp : p.IsOrdered) (ho : owner.IsOrdered) (t : Token) :
    (stepValue p owner t).IsOrdered := by
  unfold stepValue
  split
  · exact ⟨ho, hp⟩
  · split
    · exact ⟨ho, hp⟩
    · trivial
  · exact isOrdered_complete hp (Value.isScalar_string _).isOrdered ho
  · exact ⟨ho, hp⟩
  · exact isOrdered_enter hp ho (by simp [Expecting.IsOrdered])
  · exact isOrdered_enter hp ho OrderedEntries.nil
  · trivial

theorem isOrdered_newSection (hp : p.IsOrdered) (path : List String) (isArray : Bool) :
    (newSection p path isArray).IsOrdered :=
  ⟨List.forall_mem_cons.mpr ⟨hp.current, hp.finished⟩, by simp [newSection, Section.IsOrdered],
    hp.stack⟩

theorem isOrdered_stepHeaderKey (hp : p.IsOrdered) (isArray : Bool) (k : KeyParts) (t : Token) :
    (stepHeaderKey p isArray k t).IsOrdered := by
  unfold stepHeaderKey
  split
  · split_ifs
    · exact ⟨trivial, hp⟩
    · exact ⟨trivial, isOrdered_newSection hp _ _⟩
  · split
    · exact ⟨trivial, hp⟩
    · trivial

theorem isOrdered_stepPlain (he : e.IsOrdered) (hp : p.IsOrdered) (t : Token) :
    (stepPlain e p t).IsOrdered := by
  have harray {items : List Value} (h : ∀ v ∈ items, v.IsOrdered) :
      (close p (.array items.reverse false)).IsOrdered :=
    isOrdered_close hp (Value.isOrdered_array.mpr fun v hv => h v (List.mem_reverse.mp hv))
  have htable {entries : Entries Value} (h : OrderedEntries entries) :
      (close p (.table .inline entries)).IsOrdered :=
    isOrdered_close hp (Value.isOrdered_table.mpr h)
  fun_cases stepPlain e p t
  case case7 | case8 => exact isOrdered_stepHeaderKey hp _ _ t
  case case9 => exact ⟨trivial, isOrdered_newSection hp _ _⟩
  case case19 | case33 => exact htable he
  case case37 | case42 => exact harray he
  case case38 | case44 =>
    refine isOrdered_stepValue hp ?_ t
    exact he
  case case5 | case10 | case13 | case16 | case21 | case25 | case29 | case34 | case43 | case45
      | case46 => trivial
  -- the reader goes on with the values it has
  all_goals exact ⟨he, hp⟩

theorem isOrdered_stepAfter {r : Reading} (h : r.IsOrdered) (t : Token) :
    (stepAfter r t).IsOrdered := by
  cases r with
  | reading e p => exact isOrdered_stepPlain h.1 h.2 t
  | broken => trivial

theorem isOrdered_step {r : Reading} (h : r.IsOrdered) (t : Token) : (step r t).IsOrdered := by
  unfold step
  split
  case h_4 | h_8 => exact isOrdered_stepAfter (isOrdered_endScalar h.2 h.1 _) _
  case h_9 => exact isOrdered_stepPlain h.1 h.2 _
  case h_10 => trivial
  all_goals exact h

theorem isOrdered_run {r : Reading} (h : r.IsOrdered) (ts : List Token) :
    (r.run ts).IsOrdered := by
  induction ts generalizing r with
  | nil => exact h
  | cons t ts ih => exact ih (isOrdered_step h t)

theorem isOrdered_start : start.IsOrdered :=
  ⟨trivial, by simp, by simp [Section.IsOrdered], by simp⟩

theorem IsOrdered.sections? {r : Reading} (h : r.IsOrdered) {sections : List Section}
    (hs : r.sections? = some sections) : ∀ s ∈ sections, s.IsOrdered := by
  unfold Reading.sections? at hs
  split at hs
  case h_1 | h_2 =>
    cases hs
    exact h.2.sections
  case h_3 | h_4 =>
    split at hs
    · next p hend =>
      cases hs
      have hp : (reading lineEnd p).IsOrdered := hend ▸ isOrdered_endScalar h.2 h.1 _
      exact hp.2.sections
    · cases hs
  case h_5 => cases hs

end Reading

/-- The table that a text writes is ordered, and so are all tables in it. -/
theorem orderedEntries_of_parse? {source : String} {root : Entries Value}
    (h : parse? source = some root) : OrderedEntries root := by
  obtain ⟨tokens, -, h⟩ := Option.bind_eq_some_iff.mp h
  obtain ⟨sections, hs, h⟩ := Option.bind_eq_some_iff.mp h
  exact orderedEntries_ofSections
    ((Reading.isOrdered_run Reading.isOrdered_start tokens).sections? hs) h

end CamelLint.Toml
