import CamelLint.Json.Decode
import CamelLint.Proofs.Records

/-! The JSON forms of findings. Relations say which values represent a finding and its
parts: two forms of a choice and two of a record, one in another. Decoding accepts
exactly these and gives what they represent, as long as an object has each name
once; encoding writes one of them. -/

namespace CamelLint.Json

/-! ### Forms -/

mutual

/-- No object in the value has two members of one name. -/
def hasDistinctNames : Json → Bool
  | array items => haveDistinctNames items
  | object members => decide (members.map (·.1)).Nodup && membersHaveDistinctNames members
  | _ => true

def haveDistinctNames : List Json → Bool
  | [] => true
  | a :: r => hasDistinctNames a && haveDistinctNames r

def membersHaveDistinctNames : List (String × Json) → Bool
  | [] => true
  | (_, a) :: r => hasDistinctNames a && membersHaveDistinctNames r

end

/-- A severity is represented by its word, also as the name of the only member of an object. -/
inductive RepresentsSeverity : Json → Severity → Prop where
  | word (s : Severity) : RepresentsSeverity (string s.label) s
  | member (s : Severity) : RepresentsSeverity (object [(s.label, null)]) s

/-- The kind of a finding is represented by an object of its fields, whatever else is in it,
or by the array of its fields. -/
inductive RepresentsKind : Json → FindingKind → Prop where
  | object {members : List (String × Json)} {k : FindingKind}
      (hn : ("name", string k.name) ∈ members) (hb : ("body", string k.body) ∈ members) :
      RepresentsKind (object members) k
  | array (k : FindingKind) : RepresentsKind (array [string k.name, string k.body]) k

/-- So is a finding, whose location is any value. -/
inductive RepresentsFinding : Json → Finding Json → Prop where
  | object {members : List (String × Json)} {kind severity : Json} {f : Finding Json}
      (hk : ("kind", kind) ∈ members) (hs : ("severity", severity) ∈ members)
      (hl : ("location", f.location) ∈ members) (ht : ("subject", string f.subject) ∈ members)
      (kindForm : RepresentsKind kind f.kind)
      (severityForm : RepresentsSeverity severity f.severity) :
      RepresentsFinding (object members) f
  | array {kind severity : Json} {f : Finding Json} (kindForm : RepresentsKind kind f.kind)
      (severityForm : RepresentsSeverity severity f.severity) :
      RepresentsFinding (array [kind, severity, f.location, string f.subject]) f

/-! ### Steps that may fail -/

theorem require_eq_ok_iff {α : Type} {name : String} {o : Option α} {a : α} :
    require name o = .ok a ↔ o = some a := by
  cases o <;> simp [require]

theorem decodeString_eq_ok_iff {v : Json} {s : String} : decodeString v = .ok s ↔ v = string s := by
  cases v <;> simp [decodeString]

/-! ### Choices -/

/-- The choice that a word names, if it names one. -/
theorem find?_label_eq_some_iff {α : Type} {all : List α} {label : α → String}
    (hall : ∀ a, a ∈ all) (hinj : ∀ a b, label a = label b → a = b) {word : String} {a : α} :
    all.find? (label · = word) = some a ↔ word = label a := by
  constructor
  · intro h
    have hl : label a = word := by simpa using List.find?_some h
    exact hl.symm
  · rintro rfl
    cases h : all.find? (label · = label a) with
    | none => exact absurd (List.find?_eq_none.mp h a (hall a)) (by simp)
    | some b =>
      have hl : label b = label a := by simpa using List.find?_some h
      rw [hinj b a hl]

theorem decodeChoice_eq_ok_iff {α : Type} {all : List α} {label : α → String}
    (hall : ∀ a, a ∈ all) (hinj : ∀ a b, label a = label b → a = b) {v : Json} {a : α} :
    decodeChoice all label v = .ok a ↔ v = string (label a) ∨ v = object [(label a, null)] := by
  have hfind : ∀ word, all.find? (label · = word) = some a ↔ word = label a :=
    fun _ => find?_label_eq_some_iff hall hinj
  cases v with
  | string word =>
    simp only [decodeChoice, string.injEq, reduceCtorEq, or_false, ← hfind]
    cases all.find? (label · = word) <;> simp
  | object members =>
    match members with
    | [] => simp [decodeChoice]
    | [(word, content)] =>
      simp only [decodeChoice, bind_eq_ok_iff, reduceCtorEq, object.injEq, List.cons.injEq,
        Prod.mk.injEq, and_true, false_or, ← hfind]
      cases all.find? (label · = word) <;> cases content <;> simp
    | _ :: _ :: _ => simp [decodeChoice]
  | _ => simp [decodeChoice]

theorem decodeSeverity_eq_ok_iff {v : Json} {s : Severity} :
    decodeSeverity v = .ok s ↔ RepresentsSeverity v s := by
  have hall : ∀ s, s ∈ Severity.all := by
    intro s
    cases s <;> decide
  rw [decodeSeverity, decodeChoice_eq_ok_iff hall fun _ _ => Severity.label_injective]
  constructor
  · rintro (rfl | rfl)
    · exact .word s
    · exact .member s
  · rintro (_ | _)
    · exact .inl rfl
    · exact .inr rfl

/-! ### Kinds of findings -/

namespace KindFields

/-- What reading one member does. -/
theorem read_cases {s s' : KindFields} {m : String × Json} (h : read s m = .ok s') :
    (m.1 = "name" ∧ ∃ a, decodeString m.2 = .ok a ∧ s' = { s with name := some a }) ∨
    (m.1 = "body" ∧ ∃ a, decodeString m.2 = .ok a ∧ s' = { s with body := some a }) ∨
    (m.1 ≠ "name" ∧ m.1 ≠ "body" ∧ s' = s) := by
  unfold read at h
  split at h
  · rename_i hm
    obtain ⟨a, ha, hs⟩ := bind_eq_ok_iff.mp h
    cases hs
    exact .inl ⟨hm, a, ha, rfl⟩
  · rename_i hm
    obtain ⟨a, ha, hs⟩ := bind_eq_ok_iff.mp h
    cases hs
    exact .inr (.inl ⟨hm, a, ha, rfl⟩)
  · rename_i hn hb
    cases h
    exact .inr (.inr ⟨hn, hb, rfl⟩)

theorem setsName : SetsField read "name" decodeString (·.name) where
  own h := by
    rcases read_cases h with ⟨-, a, ha, rfl⟩ | ⟨hm, -⟩ | ⟨hm, -⟩
    · exact ⟨a, ha, rfl⟩
    · simp at hm
    · simp at hm
  other hm h := by
    rcases read_cases h with ⟨hn, -⟩ | ⟨-, a, -, rfl⟩ | ⟨-, -, rfl⟩
    · exact absurd hn hm
    · rfl
    · rfl

theorem setsBody : SetsField read "body" decodeString (·.body) where
  own h := by
    rcases read_cases h with ⟨hm, -⟩ | ⟨-, a, ha, rfl⟩ | ⟨-, hm, -⟩
    · simp at hm
    · exact ⟨a, ha, rfl⟩
    · simp at hm
  other hm h := by
    rcases read_cases h with ⟨-, a, -, rfl⟩ | ⟨hb, -⟩ | ⟨-, -, rfl⟩
    · rfl
    · exact absurd hb hm
    · rfl

theorem read_ok {m : String × Json} (hn : m.1 = "name" → ∃ a, decodeString m.2 = .ok a)
    (hb : m.1 = "body" → ∃ a, decodeString m.2 = .ok a) (s : KindFields) :
    ∃ s', read s m = .ok s' := by
  unfold read
  split
  · rename_i hm
    obtain ⟨a, ha⟩ := hn hm
    exact ⟨_, by rw [ha]; rfl⟩
  · rename_i hm
    obtain ⟨a, ha⟩ := hb hm
    exact ⟨_, by rw [ha]; rfl⟩
  · exact ⟨s, rfl⟩

end KindFields

theorem decodeKind_object_eq_ok_iff {members : List (String × Json)}
    (hd : (members.map (·.1)).Nodup) {k : FindingKind} :
    decodeKind (object members) = .ok k ↔ RepresentsKind (object members) k := by
  have hfields : decodeKind (object members) = .ok k ↔
      ∃ fields, members.foldlM KindFields.read {} = .ok fields ∧ fields.name = some k.name ∧
        fields.body = some k.body := by
    simp only [decodeKind, bind_eq_ok_iff, require_eq_ok_iff, pure, Except.pure, Except.ok.injEq]
    constructor
    · rintro ⟨fields, hf, name, hn, body, hb, rfl⟩
      exact ⟨fields, hf, hn, hb⟩
    · rintro ⟨fields, hf, hn, hb⟩
      exact ⟨fields, hf, k.name, hn, k.body, hb, rfl⟩
  rw [hfields]
  constructor
  · rintro ⟨fields, hf, hn, hb⟩
    obtain ⟨v, hv, hname⟩ := (KindFields.setsName.get_eq_some_iff hd hf rfl).mp hn
    obtain ⟨w, hw, hbody⟩ := (KindFields.setsBody.get_eq_some_iff hd hf rfl).mp hb
    rw [decodeString_eq_ok_iff] at hname hbody
    subst hname hbody
    exact .object hv hw
  · intro h
    cases h with
    | object hn hb =>
      have hname := decodeString_eq_ok_iff.mpr (rfl : string k.name = string k.name)
      have hbody := decodeString_eq_ok_iff.mpr (rfl : string k.body = string k.body)
      obtain ⟨fields, hf⟩ : ∃ fields, members.foldlM KindFields.read {} = .ok fields := by
        apply foldlM_read_ok
        rintro ⟨name, v⟩ hm
        apply KindFields.read_ok
        · rintro rfl
          exact ⟨_, eq_of_mem_of_nodup hd hn hm ▸ hname⟩
        · rintro rfl
          exact ⟨_, eq_of_mem_of_nodup hd hb hm ▸ hbody⟩
      exact ⟨fields, hf, (KindFields.setsName.get_eq_some_iff hd hf rfl).mpr ⟨_, hn, hname⟩,
        (KindFields.setsBody.get_eq_some_iff hd hf rfl).mpr ⟨_, hb, hbody⟩⟩

theorem decodeKind_array_eq_ok_iff {items : List Json} {k : FindingKind} :
    decodeKind (array items) = .ok k ↔ RepresentsKind (array items) k := by
  constructor
  · intro h
    match items with
    | [] => cases h
    | [a] =>
      obtain ⟨_, -, h⟩ := bind_eq_ok_iff.mp h
      cases h
    | [a, b] =>
      obtain ⟨name, ha, h⟩ := bind_eq_ok_iff.mp h
      obtain ⟨body, hb, h⟩ := bind_eq_ok_iff.mp h
      rw [decodeString_eq_ok_iff] at ha hb
      subst ha hb
      cases h
      exact .array ⟨name, body⟩
    | a :: b :: _ :: _ =>
      obtain ⟨_, -, h⟩ := bind_eq_ok_iff.mp h
      obtain ⟨_, -, h⟩ := bind_eq_ok_iff.mp h
      cases h
  · intro h
    cases h
    rfl

theorem decodeKind_eq_ok_iff {v : Json} (hv : v.hasDistinctNames = true) {k : FindingKind} :
    decodeKind v = .ok k ↔ RepresentsKind v k := by
  cases v with
  | object members =>
    rw [hasDistinctNames, Bool.and_eq_true, decide_eq_true_eq] at hv
    exact decodeKind_object_eq_ok_iff hv.1
  | array items => exact decodeKind_array_eq_ok_iff
  | _ =>
    constructor
    · intro h
      cases h
    · intro h
      cases h

/-! ### Findings -/

namespace FindingFields

/-- What reading one member does. -/
theorem read_cases {s s' : FindingFields} {m : String × Json} (h : read s m = .ok s') :
    (m.1 = "kind" ∧ ∃ a, decodeKind m.2 = .ok a ∧ s' = { s with kind := some a }) ∨
    (m.1 = "severity" ∧ ∃ a, decodeSeverity m.2 = .ok a ∧ s' = { s with severity := some a }) ∨
    (m.1 = "location" ∧ s' = { s with location := some m.2 }) ∨
    (m.1 = "subject" ∧ ∃ a, decodeString m.2 = .ok a ∧ s' = { s with subject := some a }) ∨
    (m.1 ∉ ["kind", "severity", "location", "subject"] ∧ s' = s) := by
  unfold read at h
  split at h
  · rename_i hm
    obtain ⟨a, ha, hs⟩ := bind_eq_ok_iff.mp h
    cases hs
    exact .inl ⟨hm, a, ha, rfl⟩
  · rename_i hm
    obtain ⟨a, ha, hs⟩ := bind_eq_ok_iff.mp h
    cases hs
    exact .inr (.inl ⟨hm, a, ha, rfl⟩)
  · rename_i hm
    cases h
    exact .inr (.inr (.inl ⟨hm, rfl⟩))
  · rename_i hm
    obtain ⟨a, ha, hs⟩ := bind_eq_ok_iff.mp h
    cases hs
    exact .inr (.inr (.inr (.inl ⟨hm, a, ha, rfl⟩)))
  · rename_i hk hs hl ht
    cases h
    exact .inr (.inr (.inr (.inr ⟨by simpa using ⟨hk, hs, hl, ht⟩, rfl⟩)))

theorem setsKind : SetsField read "kind" decodeKind (·.kind) where
  own h := by
    rcases read_cases h with ⟨-, a, ha, rfl⟩ | ⟨hm, -⟩ | ⟨hm, -⟩ | ⟨hm, -⟩ | ⟨hm, -⟩
    · exact ⟨a, ha, rfl⟩
    all_goals simp at hm
  other hm h := by
    rcases read_cases h with
      ⟨hk, -⟩ | ⟨-, a, -, rfl⟩ | ⟨-, rfl⟩ | ⟨-, a, -, rfl⟩ | ⟨-, rfl⟩
    · exact absurd hk hm
    all_goals rfl

theorem setsSeverity : SetsField read "severity" decodeSeverity (·.severity) where
  own h := by
    rcases read_cases h with ⟨hm, -⟩ | ⟨-, a, ha, rfl⟩ | ⟨hm, -⟩ | ⟨hm, -⟩ | ⟨hm, -⟩
    · simp at hm
    · exact ⟨a, ha, rfl⟩
    all_goals simp at hm
  other hm h := by
    rcases read_cases h with
      ⟨-, a, -, rfl⟩ | ⟨hs, -⟩ | ⟨-, rfl⟩ | ⟨-, a, -, rfl⟩ | ⟨-, rfl⟩
    · rfl
    · exact absurd hs hm
    all_goals rfl

theorem setsLocation : SetsField read "location" Except.ok (·.location) where
  own h := by
    rcases read_cases h with ⟨hm, -⟩ | ⟨hm, -⟩ | ⟨-, rfl⟩ | ⟨hm, -⟩ | ⟨hm, -⟩
    · simp at hm
    · simp at hm
    · exact ⟨_, rfl, rfl⟩
    all_goals simp at hm
  other hm h := by
    rcases read_cases h with
      ⟨-, a, -, rfl⟩ | ⟨-, a, -, rfl⟩ | ⟨hl, -⟩ | ⟨-, a, -, rfl⟩ | ⟨-, rfl⟩
    · rfl
    · rfl
    · exact absurd hl hm
    all_goals rfl

theorem setsSubject : SetsField read "subject" decodeString (·.subject) where
  own h := by
    rcases read_cases h with ⟨hm, -⟩ | ⟨hm, -⟩ | ⟨hm, -⟩ | ⟨-, a, ha, rfl⟩ | ⟨hm, -⟩
    · simp at hm
    · simp at hm
    · simp at hm
    · exact ⟨a, ha, rfl⟩
    · simp at hm
  other hm h := by
    rcases read_cases h with
      ⟨-, a, -, rfl⟩ | ⟨-, a, -, rfl⟩ | ⟨-, rfl⟩ | ⟨ht, -⟩ | ⟨-, rfl⟩
    · rfl
    · rfl
    · rfl
    · exact absurd ht hm
    · rfl

theorem read_ok {m : String × Json} (hk : m.1 = "kind" → ∃ a, decodeKind m.2 = .ok a)
    (hs : m.1 = "severity" → ∃ a, decodeSeverity m.2 = .ok a)
    (ht : m.1 = "subject" → ∃ a, decodeString m.2 = .ok a) (s : FindingFields) :
    ∃ s', read s m = .ok s' := by
  unfold read
  split
  · rename_i hm
    obtain ⟨a, ha⟩ := hk hm
    exact ⟨_, by rw [ha]; rfl⟩
  · rename_i hm
    obtain ⟨a, ha⟩ := hs hm
    exact ⟨_, by rw [ha]; rfl⟩
  · exact ⟨_, rfl⟩
  · rename_i hm
    obtain ⟨a, ha⟩ := ht hm
    exact ⟨_, by rw [ha]; rfl⟩
  · exact ⟨s, rfl⟩

end FindingFields

/-- Members of a value with distinct names have distinct names themselves. -/
theorem hasDistinctNames_of_mem {members : List (String × Json)}
    (h : membersHaveDistinctNames members = true) {m : String × Json} (hm : m ∈ members) :
    m.2.hasDistinctNames = true := by
  induction members with
  | nil => cases hm
  | cons n r ih =>
    rw [membersHaveDistinctNames, Bool.and_eq_true] at h
    rcases List.mem_cons.mp hm with rfl | hm
    · exact h.1
    · exact ih h.2 hm

theorem decodeFinding_object_eq_ok_iff {members : List (String × Json)}
    (hv : (object members).hasDistinctNames = true) {f : Finding Json} :
    decodeFinding (object members) = .ok f ↔ RepresentsFinding (object members) f := by
  rw [hasDistinctNames, Bool.and_eq_true, decide_eq_true_eq] at hv
  obtain ⟨hd, hmembers⟩ := hv
  have hfields : decodeFinding (object members) = .ok f ↔
      ∃ fields, members.foldlM FindingFields.read {} = .ok fields ∧ fields.kind = some f.kind ∧
        fields.severity = some f.severity ∧ fields.location = some f.location ∧
        fields.subject = some f.subject := by
    simp only [decodeFinding, bind_eq_ok_iff, require_eq_ok_iff, pure, Except.pure,
      Except.ok.injEq]
    constructor
    · rintro ⟨fields, hf, kind, hk, severity, hs, location, hl, subject, ht, rfl⟩
      exact ⟨fields, hf, hk, hs, hl, ht⟩
    · rintro ⟨fields, hf, hk, hs, hl, ht⟩
      exact ⟨fields, hf, f.kind, hk, f.severity, hs, f.location, hl, f.subject, ht, rfl⟩
  rw [hfields]
  constructor
  · rintro ⟨fields, hf, hk, hs, hl, ht⟩
    obtain ⟨kind, hkind, hkf⟩ := (FindingFields.setsKind.get_eq_some_iff hd hf rfl).mp hk
    obtain ⟨severity, hsev, hsf⟩ := (FindingFields.setsSeverity.get_eq_some_iff hd hf rfl).mp hs
    obtain ⟨location, hloc, hlf⟩ := (FindingFields.setsLocation.get_eq_some_iff hd hf rfl).mp hl
    obtain ⟨subject, hsub, htf⟩ := (FindingFields.setsSubject.get_eq_some_iff hd hf rfl).mp ht
    cases hlf
    rw [decodeString_eq_ok_iff] at htf
    subst htf
    exact .object hkind hsev hloc hsub
      ((decodeKind_eq_ok_iff (hasDistinctNames_of_mem hmembers hkind)).mp hkf)
      (decodeSeverity_eq_ok_iff.mp hsf)
  · intro h
    cases h with
    | @object _ kind severity _ hk hs hl ht kindForm severityForm =>
      have hkind : decodeKind kind = .ok f.kind :=
        (decodeKind_eq_ok_iff (hasDistinctNames_of_mem hmembers hk)).mpr kindForm
      have hsev : decodeSeverity severity = .ok f.severity :=
        decodeSeverity_eq_ok_iff.mpr severityForm
      have hsub : decodeString (string f.subject) = .ok f.subject := rfl
      obtain ⟨fields, hf⟩ : ∃ fields, members.foldlM FindingFields.read {} = .ok fields := by
        apply foldlM_read_ok
        rintro ⟨name, v⟩ hm
        apply FindingFields.read_ok
        · rintro rfl
          exact ⟨_, eq_of_mem_of_nodup hd hk hm ▸ hkind⟩
        · rintro rfl
          exact ⟨_, eq_of_mem_of_nodup hd hs hm ▸ hsev⟩
        · rintro rfl
          exact ⟨_, eq_of_mem_of_nodup hd ht hm ▸ hsub⟩
      exact ⟨fields, hf,
        (FindingFields.setsKind.get_eq_some_iff hd hf rfl).mpr ⟨kind, hk, hkind⟩,
        (FindingFields.setsSeverity.get_eq_some_iff hd hf rfl).mpr ⟨severity, hs, hsev⟩,
        (FindingFields.setsLocation.get_eq_some_iff hd hf rfl).mpr ⟨f.location, hl, rfl⟩,
        (FindingFields.setsSubject.get_eq_some_iff hd hf rfl).mpr ⟨_, ht, hsub⟩⟩

theorem decodeFinding_array_eq_ok_iff {items : List Json}
    (hv : (array items).hasDistinctNames = true) {f : Finding Json} :
    decodeFinding (array items) = .ok f ↔ RepresentsFinding (array items) f := by
  constructor
  · intro h
    match items with
    | [] => cases h
    | [_] =>
      obtain ⟨_, -, h⟩ := bind_eq_ok_iff.mp h
      cases h
    | [_, _] =>
      obtain ⟨_, -, h⟩ := bind_eq_ok_iff.mp h
      obtain ⟨_, -, h⟩ := bind_eq_ok_iff.mp h
      cases h
    | [_, _, _] =>
      obtain ⟨_, -, h⟩ := bind_eq_ok_iff.mp h
      obtain ⟨_, -, h⟩ := bind_eq_ok_iff.mp h
      cases h
    | [a, b, c, d] =>
      rw [hasDistinctNames, haveDistinctNames, Bool.and_eq_true] at hv
      obtain ⟨kind, hk, h⟩ := bind_eq_ok_iff.mp h
      obtain ⟨severity, hs, h⟩ := bind_eq_ok_iff.mp h
      obtain ⟨subject, ht, h⟩ := bind_eq_ok_iff.mp h
      rw [decodeString_eq_ok_iff] at ht
      subst ht
      cases h
      exact .array (f := ⟨kind, severity, c, subject⟩) ((decodeKind_eq_ok_iff hv.1).mp hk)
        (decodeSeverity_eq_ok_iff.mp hs)
    | _ :: _ :: _ :: _ :: _ :: _ =>
      obtain ⟨_, -, h⟩ := bind_eq_ok_iff.mp h
      obtain ⟨_, -, h⟩ := bind_eq_ok_iff.mp h
      obtain ⟨_, -, h⟩ := bind_eq_ok_iff.mp h
      cases h
  · intro h
    cases h with
    | array kindForm severityForm =>
      rw [hasDistinctNames, haveDistinctNames, Bool.and_eq_true] at hv
      simp only [decodeFinding, (decodeKind_eq_ok_iff hv.1).mpr kindForm,
        decodeSeverity_eq_ok_iff.mpr severityForm]
      rfl

theorem decodeFinding_eq_ok_iff {v : Json} (hv : v.hasDistinctNames = true) {f : Finding Json} :
    decodeFinding v = .ok f ↔ RepresentsFinding v f := by
  cases v with
  | object members => exact decodeFinding_object_eq_ok_iff hv
  | array items => exact decodeFinding_array_eq_ok_iff hv
  | _ =>
    constructor
    · intro h
      cases h
    · intro h
      cases h

/-! ### Encoding -/

theorem representsFinding_encodeFinding (f : Finding Json) :
    RepresentsFinding (encodeFinding f) f := by
  have hkind : RepresentsKind (encodeKind f.kind) f.kind := .object (by simp) (by simp)
  have hseverity : RepresentsSeverity (encodeSeverity f.severity) f.severity := .word f.severity
  exact .object (by simp) (by simp) (by simp) (by simp) hkind hseverity

theorem hasDistinctNames_encodeFinding {f : Finding Json}
    (h : f.location.hasDistinctNames = true) : (encodeFinding f).hasDistinctNames = true := by
  have hkind : (encodeKind f.kind).hasDistinctNames = true := by
    simp [encodeKind, hasDistinctNames, membersHaveDistinctNames]
  simp [encodeFinding, encodeSeverity, hasDistinctNames, membersHaveDistinctNames, hkind, h]

/-- The location is not looked into, so this holds of every location. -/
theorem decodeFinding_encodeFinding (f : Finding Json) :
    decodeFinding (encodeFinding f) = .ok f := by
  obtain ⟨kind, severity, location, subject⟩ := f
  cases severity <;> rfl

/-- Exactly the values that represent a finding are decoded as it, and it is encoded as one
of them. -/
theorem decodeFinding_exact (f : Finding Json) :
    (∀ v : Json, v.hasDistinctNames = true →
      (decodeFinding v = .ok f ↔ RepresentsFinding v f)) ∧
    (f.location.hasDistinctNames = true → (encodeFinding f).hasDistinctNames = true) ∧
    RepresentsFinding (encodeFinding f) f ∧ decodeFinding (encodeFinding f) = .ok f :=
  ⟨fun _ hv => decodeFinding_eq_ok_iff hv, hasDistinctNames_encodeFinding,
    representsFinding_encodeFinding f, decodeFinding_encodeFinding f⟩

/-- A finding with an object for its location. -/
def locatedFinding : Finding Json :=
  ⟨⟨"NamingPattern", "b"⟩, .fatal, object [("line", integer 3)], "XMLReader"⟩

/-- An array of which the kind is an object with a further member, and the severity an
object. -/
def mixedForm : Json :=
  array [object [("body", string "b"), ("column", integer 1), ("name", string "NamingPattern")],
    object [("Fatal", null)], object [("line", integer 3)], string "XMLReader"]

theorem decodeFinding_exact_mixed :
    mixedForm.hasDistinctNames = true ∧ locatedFinding.location.hasDistinctNames = true ∧
      decodeFinding mixedForm = .ok locatedFinding ∧
      RepresentsFinding mixedForm locatedFinding ∧
      (encodeFinding locatedFinding).hasDistinctNames = true ∧
      decodeFinding (encodeFinding locatedFinding) = .ok locatedFinding :=
  have hv : mixedForm.hasDistinctNames = true := by decide
  have hl : locatedFinding.location.hasDistinctNames = true := by decide
  have hform : RepresentsFinding mixedForm locatedFinding :=
    .array (f := locatedFinding) (.object (by simp [locatedFinding]) (by simp [locatedFinding]))
      (.member .fatal)
  have hexact := decodeFinding_exact locatedFinding
  ⟨hv, hl, (hexact.1 mixedForm hv).mpr hform, hform, hexact.2.1 hl, hexact.2.2.2⟩

end CamelLint.Json
