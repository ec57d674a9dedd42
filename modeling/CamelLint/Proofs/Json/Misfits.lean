import CamelLint.Proofs.Entries
import CamelLint.Proofs.Json.Forms

/-! Which misfit is reported. A record is a list of fields, in the order of their
declaration. In an object, a value that does not fit comes before a field that is missing:
of such values the one under the first name in ascending order counts, of missing
fields the first one declared. In an array, elements count from left to right and come
before its length. Members that are for no field count for nothing. -/

namespace CamelLint.Json

/-! ### Records -/

/-- A field by its name and by what is wrong with a value for it, if anything is. -/
structure RecordField where
  name : String
  misfit? : Json → Option Misfit

/-- A record by the words for its array form and by its fields, as they are declared. -/
structure Record where
  arrayForm : String
  fields : List RecordField
  distinct : (fields.map (·.name)).Nodup := by decide

def kindRecord : Record where
  arrayForm := "struct FindingKind with 2 elements"
  fields :=
    [⟨"name", fun v => errorOf? (decodeString v)⟩, ⟨"body", fun v => errorOf? (decodeString v)⟩]

/-- Any value is fit for a location. -/
def findingRecord : Record where
  arrayForm := "struct Finding with 4 elements"
  fields :=
    [⟨"kind", fun v => errorOf? (decodeKind v)⟩,
      ⟨"severity", fun v => errorOf? (decodeSeverity v)⟩, ⟨"location", fun _ => none⟩,
      ⟨"subject", fun v => errorOf? (decodeString v)⟩]

/-- The misfit that an object shows where the record is expected: that of the least name whose
value does not fit or, if all values fit, the first field that is missing. -/
inductive ObjectMisfit (r : Record) (members : List (String × Json)) : Misfit → Prop where
  | value {f : RecordField} {v : Json} {e : Misfit} (hf : f ∈ r.fields)
      (hv : (f.name, v) ∈ members) (he : f.misfit? v = some e)
      (first : ∀ g ∈ r.fields, ∀ w, (g.name, w) ∈ members → g.misfit? w ≠ none →
        f.name ≤ g.name) : ObjectMisfit r members e
  | missing {before after : List RecordField} {f : RecordField}
      (hf : r.fields = before ++ f :: after)
      (fit : ∀ g ∈ r.fields, ∀ w, (g.name, w) ∈ members → g.misfit? w = none)
      (present : ∀ g ∈ before, g.name ∈ members.map (·.1))
      (absent : f.name ∉ members.map (·.1)) : ObjectMisfit r members (.missingField f.name)

/-- The misfit that an array shows where the record is expected: that of the first element that
does not fit its field or, if all do, that of the length. -/
inductive ArrayMisfit (r : Record) (items : List Json) : Misfit → Prop where
  | value {before after : List (RecordField × Json)} {f : RecordField} {v : Json} {e : Misfit}
      (hv : r.fields.zip items = before ++ (f, v) :: after)
      (fit : ∀ p ∈ before, p.1.misfit? p.2 = none) (he : f.misfit? v = some e) :
      ArrayMisfit r items e
  | short (fit : ∀ p ∈ r.fields.zip items, p.1.misfit? p.2 = none)
      (h : items.length < r.fields.length) :
      ArrayMisfit r items (.wrongLength items.length r.arrayForm)
  | long (fit : ∀ p ∈ r.fields.zip items, p.1.misfit? p.2 = none)
      (h : r.fields.length < items.length) :
      ArrayMisfit r items (.wrongLength items.length "fewer elements in array")

/-- The order in which the members are written does not matter. -/
theorem ObjectMisfit.of_perm {r : Record} {members others : List (String × Json)} {e : Misfit}
    (hp : members.Perm others) (h : ObjectMisfit r members e) : ObjectMisfit r others e := by
  have hkeys : ∀ name, name ∈ members.map (·.1) ↔ name ∈ others.map (·.1) :=
    fun _ => (hp.map _).mem_iff
  cases h with
  | value hf hv he first =>
    exact .value hf (hp.mem_iff.mp hv) he fun g hg w hw => first g hg w (hp.mem_iff.mpr hw)
  | missing hf fit present absent =>
    refine .missing hf (fun g hg w hw => fit g hg w (hp.mem_iff.mpr hw)) ?_ ?_
    · exact fun g hg => (hkeys g.name).mp (present g hg)
    · exact fun hmem => absent ((hkeys _).mpr hmem)

namespace Record

/-! ### Misfits by computation -/

/-- The member is for a field of the record. -/
def knows (r : Record) (m : String × Json) : Bool := m.1 ∈ r.fields.map (·.name)

def memberMisfit? (r : Record) (m : String × Json) : Option Misfit :=
  (r.fields.find? (·.name = m.1)).bind (·.misfit? m.2)

/-- The first of the fields that no member is for. -/
def missing? (fields : List RecordField) (members : List (String × Json)) : Option Misfit :=
  (fields.find? (·.name ∉ members.map (·.1))).map (.missingField ·.name)

def objectMisfit? (r : Record) (members : List (String × Json)) : Option Misfit :=
  (members.findSome? r.memberMisfit?).or (missing? r.fields members)

def lengthMisfit? (r : Record) (items : List Json) : Option Misfit :=
  if items.length < r.fields.length then some (.wrongLength items.length r.arrayForm)
  else if r.fields.length < items.length then
    some (.wrongLength items.length "fewer elements in array")
  else none

def arrayMisfit? (r : Record) (items : List Json) : Option Misfit :=
  ((r.fields.zip items).findSome? fun p => p.1.misfit? p.2).or (r.lengthMisfit? items)

theorem memberMisfit?_field {r : Record} {f : RecordField} (hf : f ∈ r.fields) (v : Json) :
    r.memberMisfit? (f.name, v) = f.misfit? v := by
  have hfind : r.fields.find? (·.name = f.name) = some f := by
    cases h : r.fields.find? (·.name = f.name) with
    | none => exact absurd (List.find?_eq_none.mp h f hf) (by simp)
    | some g =>
      have hg : g.name = f.name := by simpa using List.find?_some h
      rw [List.inj_on_of_nodup_map r.distinct (List.mem_of_find?_eq_some h) hf hg]
  rw [memberMisfit?, hfind, Option.bind_some]

/-- Something can be wrong with a member only if it is for a field. -/
theorem exists_field_of_memberMisfit? {r : Record} {m : String × Json}
    (h : r.memberMisfit? m ≠ none) : ∃ f ∈ r.fields, f.name = m.1 := by
  rw [memberMisfit?] at h
  cases hfind : r.fields.find? (·.name = m.1) with
  | none => exact absurd (by rw [hfind, Option.bind_none]) h
  | some f => exact ⟨f, List.mem_of_find?_eq_some hfind, by simpa using List.find?_some hfind⟩

end Record

/-- In ascending order the first member with which something is wrong is the one with the least
name. -/
theorem findSome?_eq_some_iff_least {members : List (String × Json)}
    (hm : Entries.Ascending members) {wrong? : String × Json → Option Misfit} {e : Misfit} :
    members.findSome? wrong? = some e ↔ ∃ m ∈ members, wrong? m = some e ∧
      ∀ n ∈ members, wrong? n ≠ none → m.1 ≤ n.1 := by
  have hfirst : ∀ {e}, members.findSome? wrong? = some e → ∃ m ∈ members, wrong? m = some e ∧
      ∀ n ∈ members, wrong? n ≠ none → m.1 ≤ n.1 := by
    intro e h
    obtain ⟨before, m, after, rfl, he, hbefore⟩ := List.findSome?_eq_some_iff.mp h
    refine ⟨m, by simp, he, ?_⟩
    intro n hn hwrong
    rw [List.mem_append, List.mem_cons] at hn
    rcases hn with hn | rfl | hn
    · exact absurd (hbefore n hn) hwrong
    · exact le_rfl
    · have hlt := (List.pairwise_append.mp (List.pairwise_map.mp hm)).2.1
      exact (List.rel_of_pairwise_cons hlt hn).le
  refine ⟨hfirst, ?_⟩
  rintro ⟨m, hmem, he, hleast⟩
  cases hfind : members.findSome? wrong? with
  | none => exact absurd (List.findSome?_eq_none_iff.mp hfind m hmem) (by simp [he])
  | some d =>
    obtain ⟨n, hn, hd, hleast'⟩ := hfirst hfind
    have hle : m.1 ≤ n.1 := hleast n hn (by simp [hd])
    have hge : n.1 ≤ m.1 := hleast' m hmem (by simp [he])
    rw [← hd, ← he, List.inj_on_of_nodup_map hm.nodup hmem hn (le_antisymm hle hge)]

theorem Record.objectMisfit?_eq_some_iff {r : Record} {members : List (String × Json)}
    (hm : Entries.Ascending members) {e : Misfit} :
    r.objectMisfit? members = some e ↔ ObjectMisfit r members e := by
  rw [objectMisfit?, Option.or_eq_some_iff, findSome?_eq_some_iff_least hm,
    List.findSome?_eq_none_iff, missing?, Option.map_eq_some_iff]
  constructor
  · rintro (⟨⟨name, v⟩, hv, he, hleast⟩ | ⟨hfit, f, hfind, rfl⟩)
    · have hne : r.memberMisfit? (name, v) ≠ none := by simp [he]
      obtain ⟨f, hf, rfl⟩ := exists_field_of_memberMisfit? hne
      rw [memberMisfit?_field hf] at he
      refine .value hf hv he ?_
      intro g hg w hw hne
      exact hleast (g.name, w) hw (by rwa [memberMisfit?_field hg])
    · obtain ⟨habsent, before, after, hf, hbefore⟩ := List.find?_eq_some_iff_append.mp hfind
      refine .missing hf ?_ (by simpa using hbefore) (by simpa using habsent)
      intro g hg w hw
      rw [← memberMisfit?_field hg]
      exact hfit (g.name, w) hw
  · rintro (⟨hf, hv, he, hfirst⟩ | ⟨hf, hfit, hpresent, habsent⟩)
    · refine .inl ⟨_, hv, (memberMisfit?_field hf _).trans he, ?_⟩
      rintro ⟨_, w⟩ hw hne
      obtain ⟨g, hg, rfl⟩ := exists_field_of_memberMisfit? hne
      rw [memberMisfit?_field hg] at hne
      exact hfirst g hg w hw hne
    · refine .inr ⟨?_, _, List.find?_eq_some_iff_append.mpr ⟨?_, _, _, hf, ?_⟩, rfl⟩
      · rintro ⟨_, w⟩ hw
        by_contra hne
        obtain ⟨g, hg, rfl⟩ := exists_field_of_memberMisfit? hne
        rw [memberMisfit?_field hg] at hne
        exact hne (hfit g hg w hw)
      · simpa using habsent
      · simpa using hpresent

theorem Record.arrayMisfit?_eq_some_iff {r : Record} {items : List Json} {e : Misfit} :
    r.arrayMisfit? items = some e ↔ ArrayMisfit r items e := by
  rw [arrayMisfit?, Option.or_eq_some_iff, List.findSome?_eq_some_iff, List.findSome?_eq_none_iff,
    lengthMisfit?]
  constructor
  · rintro (⟨before, ⟨f, v⟩, after, hv, he, hfit⟩ | ⟨hfit, h⟩)
    · exact .value hv hfit he
    · split_ifs at h with hshort hlong
      · cases h
        exact .short hfit hshort
      · cases h
        exact .long hfit hlong
  · rintro (⟨hv, hfit, he⟩ | ⟨hfit, h⟩ | ⟨hfit, h⟩)
    · exact .inl ⟨_, _, _, hv, he, hfit⟩
    · exact .inr ⟨hfit, if_pos h⟩
    · exact .inr ⟨hfit, by rw [if_neg (by omega), if_pos h]⟩

/-! ### Reading step by step -/

theorem errorOf?_require_bind {α β : Type} {name : String} {misfit? : Json → Option Misfit}
    {o : Option α} {next : α → Except Misfit β} {fields : List RecordField}
    {members : List (String × Json)} (ho : o = none ↔ name ∉ members.map (·.1))
    (h : ∀ a, errorOf? (next a) = Record.missing? fields members) :
    errorOf? (require name o >>= next) = Record.missing? (⟨name, misfit?⟩ :: fields) members := by
  rw [Record.missing?, List.find?_cons]
  cases o with
  | none =>
    rw [decide_eq_true (ho.mp rfl)]
    rfl
  | some a =>
    have hpresent : ¬ name ∉ members.map (·.1) := fun habsent => by cases ho.mpr habsent
    rw [decide_eq_false hpresent]
    exact h a

/-- An object is read member by member, and then its fields are asked for. -/
theorem errorOf?_foldlM_bind {S β : Type} {r : Record} {read : S → String × Json → Except Misfit S}
    (hread : ∀ s m, errorOf? (read s m) = r.memberMisfit? m) {members : List (String × Json)}
    {start : S} {finish : S → Except Misfit β}
    (hfinish : ∀ s, members.foldlM read start = .ok s →
      errorOf? (finish s) = Record.missing? r.fields members) :
    errorOf? (members.foldlM read start >>= finish) = r.objectMisfit? members := by
  rw [Record.objectMisfit?, ← errorOf?_foldlM hread start]
  cases hf : members.foldlM read start with
  | error e => rfl
  | ok s => exact hfinish s hf

theorem findSome?_or_eq_foldr {α β : Type} (f : α → Option β) (rest : Option β) (l : List α) :
    (l.findSome? f).or rest = l.foldr (fun a next => (f a).or next) rest := by
  induction l with
  | nil => rfl
  | cons a r ih =>
    rw [List.findSome?_cons, List.foldr_cons, ← ih]
    cases f a with
    | none => rfl
    | some b => rfl

/-! ### Kinds of findings -/

theorem KindFields.errorOf?_read (s : KindFields) (m : String × Json) :
    errorOf? (read s m) = kindRecord.memberMisfit? m := by
  obtain ⟨name, v⟩ := m
  unfold read
  split
  · next hm =>
    obtain rfl : name = "name" := hm
    exact errorOf?_bind_pure _ _
  · next hm =>
    obtain rfl : name = "body" := hm
    exact errorOf?_bind_pure _ _
  · next hn hb => simp [Record.memberMisfit?, kindRecord, Ne.symm hn, Ne.symm hb]

theorem errorOf?_decodeKind_object {members : List (String × Json)}
    (hd : (members.map (·.1)).Nodup) :
    errorOf? (decodeKind (object members)) = kindRecord.objectMisfit? members := by
  apply errorOf?_foldlM_bind KindFields.errorOf?_read
  intro fields hf
  have hname := KindFields.setsName.get_eq_none_iff hd hf rfl
  have hbody := KindFields.setsBody.get_eq_none_iff hd hf rfl
  exact errorOf?_require_bind hname fun _ => errorOf?_require_bind hbody fun _ => rfl

theorem errorOf?_decodeKind_array (items : List Json) :
    errorOf? (decodeKind (array items)) = kindRecord.arrayMisfit? items := by
  -- Unrolled over the fields, what may be wrong stands in the order of reading.
  rw [Record.arrayMisfit?, findSome?_or_eq_foldr]
  match items with
  | [] => rfl
  | [_] => exact errorOf?_bind fun _ => rfl
  | [_, _] => exact errorOf?_bind fun _ => errorOf?_bind fun _ => rfl
  | _ :: _ :: _ :: _ => exact errorOf?_bind fun _ => errorOf?_bind fun _ => rfl

theorem KindFields.read_unknown {m : String × Json} (h : kindRecord.knows m = false)
    (s : KindFields) : read s m = .ok s := by
  simp only [Record.knows, kindRecord, List.map_cons, List.map_nil, decide_eq_false_iff_not,
    List.mem_cons, List.not_mem_nil, or_false, not_or] at h
  unfold read
  split
  · next hm => exact absurd hm h.1
  · next hm => exact absurd hm h.2
  · rfl

theorem decodeKind_filter_knows (members : List (String × Json)) :
    decodeKind (object (members.filter kindRecord.knows)) = decodeKind (object members) := by
  rw [decodeKind, decodeKind, foldlM_filter_eq fun s m h => KindFields.read_unknown h s]

/-! ### Findings -/

theorem FindingFields.errorOf?_read (s : FindingFields) (m : String × Json) :
    errorOf? (read s m) = findingRecord.memberMisfit? m := by
  obtain ⟨name, v⟩ := m
  unfold read
  split
  · next hm =>
    obtain rfl : name = "kind" := hm
    exact errorOf?_bind_pure _ _
  · next hm =>
    obtain rfl : name = "severity" := hm
    exact errorOf?_bind_pure _ _
  · next hm =>
    obtain rfl : name = "location" := hm
    rfl
  · next hm =>
    obtain rfl : name = "subject" := hm
    exact errorOf?_bind_pure _ _
  · next hk hs hl ht =>
    simp [Record.memberMisfit?, findingRecord, Ne.symm hk, Ne.symm hs, Ne.symm hl, Ne.symm ht]

theorem errorOf?_decodeFinding_object {members : List (String × Json)}
    (hd : (members.map (·.1)).Nodup) :
    errorOf? (decodeFinding (object members)) = findingRecord.objectMisfit? members := by
  apply errorOf?_foldlM_bind FindingFields.errorOf?_read
  intro fields hf
  have hkind := FindingFields.setsKind.get_eq_none_iff hd hf rfl
  have hseverity := FindingFields.setsSeverity.get_eq_none_iff hd hf rfl
  have hlocation := FindingFields.setsLocation.get_eq_none_iff hd hf rfl
  have hsubject := FindingFields.setsSubject.get_eq_none_iff hd hf rfl
  exact errorOf?_require_bind hkind fun _ => errorOf?_require_bind hseverity fun _ =>
    errorOf?_require_bind hlocation fun _ => errorOf?_require_bind hsubject fun _ => rfl

theorem errorOf?_decodeFinding_array (items : List Json) :
    errorOf? (decodeFinding (array items)) = findingRecord.arrayMisfit? items := by
  rw [Record.arrayMisfit?, findSome?_or_eq_foldr]
  match items with
  | [] => rfl
  | [_] => exact errorOf?_bind fun _ => rfl
  | [_, _] => exact errorOf?_bind fun _ => errorOf?_bind fun _ => rfl
  | [_, _, _] => exact errorOf?_bind fun _ => errorOf?_bind fun _ => rfl
  | [_, _, _, _] =>
    exact errorOf?_bind fun _ => errorOf?_bind fun _ => errorOf?_bind fun _ => rfl
  | _ :: _ :: _ :: _ :: _ :: _ =>
    exact errorOf?_bind fun _ => errorOf?_bind fun _ => errorOf?_bind fun _ => rfl

theorem FindingFields.read_unknown {m : String × Json} (h : findingRecord.knows m = false)
    (s : FindingFields) : read s m = .ok s := by
  simp only [Record.knows, findingRecord, List.map_cons, List.map_nil, decide_eq_false_iff_not,
    List.mem_cons, List.not_mem_nil, or_false, not_or] at h
  unfold read
  split
  · next hm => exact absurd hm h.1
  · next hm => exact absurd hm h.2.1
  · next hm => exact absurd hm h.2.2.1
  · next hm => exact absurd hm h.2.2.2
  · rfl

theorem decodeFinding_filter_knows (members : List (String × Json)) :
    decodeFinding (object (members.filter findingRecord.knows)) =
      decodeFinding (object members) := by
  rw [decodeFinding, decodeFinding, foldlM_filter_eq fun s m h => FindingFields.read_unknown h s]

/-! ### Reports -/

/-- Entries of distinct names show the misfit of the members that they are made of. -/
theorem Record.objectMisfit?_ofList {r : Record} {members : List (String × Json)}
    (hd : (members.map (·.1)).Nodup) {e : Misfit} :
    r.objectMisfit? (Entries.ofList members) = some e ↔ ObjectMisfit r members e := by
  have hperm := Entries.perm_ofList hd
  rw [objectMisfit?_eq_some_iff (Entries.ascending_ofList members)]
  exact ⟨.of_perm hperm, .of_perm hperm.symm⟩

/-- Whatever the order in which members of distinct names are written, the misfit that is
reported is the one that the object shows, and for arrays likewise. Members for no field make
no difference. -/
theorem reported_misfit (members : List (String × Json)) (hd : (members.map (·.1)).Nodup)
    (items : List Json) (e : Misfit) :
    (decodeFinding (object (Entries.ofList members)) = .error e ↔
      ObjectMisfit findingRecord members e) ∧
    (decodeKind (object (Entries.ofList members)) = .error e ↔
      ObjectMisfit kindRecord members e) ∧
    (decodeFinding (array items) = .error e ↔ ArrayMisfit findingRecord items e) ∧
    (decodeKind (array items) = .error e ↔ ArrayMisfit kindRecord items e) ∧
    (∀ o, decodeFinding (object (o.filter findingRecord.knows)) = decodeFinding (object o)) ∧
    ∀ o, decodeKind (object (o.filter kindRecord.knows)) = decodeKind (object o) := by
  have hsorted := (Entries.ascending_ofList members).nodup
  simp only [← errorOf?_eq_some_iff, errorOf?_decodeFinding_object hsorted,
    errorOf?_decodeKind_object hsorted, errorOf?_decodeFinding_array, errorOf?_decodeKind_array]
  exact ⟨Record.objectMisfit?_ofList hd, Record.objectMisfit?_ofList hd,
    Record.arrayMisfit?_eq_some_iff, Record.arrayMisfit?_eq_some_iff,
    decodeFinding_filter_knows, decodeKind_filter_knows⟩

/-- A finding without location and subject, whose severity is none and whose kind is too short
an array. -/
def faultyMembers : List (String × Json) :=
  [("severity", string "Loud"), ("kind", array [string "NamingPattern"]), ("column", integer 1)]

theorem reported_misfit_faulty :
    (faultyMembers.map (·.1)).Nodup ∧
    decodeFinding (object (Entries.ofList faultyMembers)) =
      .error (.wrongLength 1 "struct FindingKind with 2 elements") ∧
    ObjectMisfit findingRecord faultyMembers
      (.wrongLength 1 "struct FindingKind with 2 elements") ∧
    ArrayMisfit kindRecord [string "NamingPattern"]
      (.wrongLength 1 "struct FindingKind with 2 elements") ∧
    ObjectMisfit kindRecord faultyMembers (.missingField "name") := by
  have hd : (faultyMembers.map (·.1)).Nodup := by decide
  have hfinding : decodeFinding (object (Entries.ofList faultyMembers)) =
      .error (.wrongLength 1 "struct FindingKind with 2 elements") := rfl
  have hkind : decodeKind (object (Entries.ofList faultyMembers)) =
      .error (.missingField "name") := rfl
  have hreported := reported_misfit faultyMembers hd [string "NamingPattern"]
  exact ⟨hd, hfinding, (hreported _).1.mp hfinding, (hreported _).2.2.2.1.mp rfl,
    (hreported _).2.1.mp hkind⟩

end CamelLint.Json
