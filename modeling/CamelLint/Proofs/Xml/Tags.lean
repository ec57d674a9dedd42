import CamelLint.Proofs.Xml.Grammar

/-! Reading back what tags write. References stand for the characters they were
written for, values for their texts, and the text after the name of a tag splits
into the attributes that it writes. -/

namespace CamelLint.Xml

open Text (digitValue? ofDigits)

/-! ### References -/

theorem digitValue?_of_isDigitOf {base v : Nat} {c : Char} (hb : base ≤ 16)
    (h : IsDigitOf base c v) : digitValue? c = some v := by
  obtain ⟨hv, h⟩ := h
  have hlower : ∀ v < 16, "0123456789abcdef".toList[v]?.bind digitValue? = some v := by decide
  have hupper : ∀ v < 16, "0123456789ABCDEF".toList[v]?.bind digitValue? = some v := by decide
  rcases h with h | h
  · have hl := hlower v (by omega)
    rw [h] at hl
    exact hl
  · have hu := hupper v (by omega)
    rw [h] at hu
    exact hu

theorem Numeral.ne_nil {base n : Nat} {ds : List Char} (h : Numeral base ds n) : ds ≠ [] := by
  cases h <;> simp

theorem Numeral.digits {base n : Nat} {ds : List Char} (hb : base ≤ 16) (h : Numeral base ds n) :
    ∀ c ∈ ds, ∃ v < base, digitValue? c = some v := by
  induction h with
  | digit h =>
    intro c hc
    rw [List.mem_singleton] at hc
    subst hc
    exact ⟨_, h.1, digitValue?_of_isDigitOf hb h⟩
  | snoc hs h ih =>
    intro c hc
    rcases List.mem_append.mp hc with hc | hc
    · exact ih c hc
    · rw [List.mem_singleton] at hc
      subst hc
      exact ⟨_, h.1, digitValue?_of_isDigitOf hb h⟩

theorem Numeral.ofDigits_eq {base n : Nat} {ds : List Char} (hb : base ≤ 16)
    (h : Numeral base ds n) : ofDigits base ds = n := by
  induction h with
  | digit h => simp [ofDigits, digitValue?_of_isDigitOf hb h]
  | snoc hs h ih =>
    rw [ofDigits] at ih ⊢
    rw [List.foldl_append, ih]
    simp [digitValue?_of_isDigitOf hb h]

theorem Numeral.number?_eq {base n : Nat} {ds : List Char} (hb : base ≤ 16)
    (h : Numeral base ds n) : number? base ds = some n := by
  have hall : ds.all (fun c => (digitValue? c).any (· < base)) = true := by
    rw [List.all_eq_true]
    intro c hc
    obtain ⟨v, hv, hd⟩ := h.digits hb c hc
    simp [hd, hv]
  rw [number?, if_pos ⟨h.ne_nil, hall⟩, h.ofDigits_eq hb]

theorem charOfCode?_toNat {c : Char} (h : c ≠ '\x00') : charOfCode? c.toNat = some c := by
  have hz : c.toNat ≠ 0 := by
    intro h0
    apply h
    apply Char.ext
    apply UInt32.toNat_inj.mp
    exact h0
  rw [charOfCode?, dif_pos ⟨c.valid, hz⟩]
  rfl

theorem Refers.resolve? {name : List Char} {c : Char} (h : Refers name c) :
    resolve? name = some c := by
  cases h with
  | entity h =>
    simp only [entities, List.mem_cons, Prod.mk.injEq, List.not_mem_nil, or_false] at h
    rcases h with ⟨rfl, rfl⟩ | ⟨rfl, rfl⟩ | ⟨rfl, rfl⟩ | ⟨rfl, rfl⟩ | ⟨rfl, rfl⟩ <;> rfl
  | @decimal ds _ h h0 =>
    -- a decimal numeral does not begin with the mark of hexadecimal ones
    have hx : ∀ r, ds ≠ 'x' :: r := by
      rintro r rfl
      obtain ⟨v, -, hv⟩ := h.digits (by omega) 'x' List.mem_cons_self
      simp [digitValue?] at hv
    rw [Xml.resolve?, h.number?_eq (by omega)]
    · exact charOfCode?_toNat h0
    · exact hx
  | hexadecimal h h0 =>
    rw [Xml.resolve?, h.number?_eq (by omega)]
    exact charOfCode?_toNat h0

theorem Numeral.not_mem_marks {base n : Nat} {ds : List Char} (hb : base ≤ 16)
    (h : Numeral base ds n) : ∀ d ∈ ds, d ∉ ";&<>\"'".toList := by
  have hmarks : ";&<>\"'".toList.all (digitValue? · = none) = true := by decide
  intro d hd hm
  obtain ⟨v, -, hv⟩ := h.digits hb d hd
  have hnone : digitValue? d = none := of_decide_eq_true (List.all_eq_true.mp hmarks d hm)
  rw [hnone] at hv
  cases hv

/-- What is referred by holds no mark that ends a reference, a value or text. -/
theorem Refers.not_mem_marks {name : List Char} {c : Char} (h : Refers name c) :
    ∀ d ∈ name, d ∉ ";&<>\"'".toList := by
  cases h with
  | @entity name c h =>
    have hentities : entities.all (fun e => e.1.toList.all (· ∉ ";&<>\"'".toList)) = true := by
      decide
    intro d hd
    have hname := List.all_eq_true.mp hentities (name, c) h
    exact of_decide_eq_true (List.all_eq_true.mp hname d hd)
  | decimal h h0 =>
    intro d hd
    rcases List.mem_cons.mp hd with rfl | hd
    · decide
    · exact h.not_mem_marks (by omega) d hd
  | hexadecimal h h0 =>
    intro d hd
    rcases List.mem_cons.mp hd with rfl | hd
    · decide
    · rcases List.mem_cons.mp hd with rfl | hd
      · decide
      · exact h.not_mem_marks (by omega) d hd

theorem Refers.forall_ne {name : List Char} {c : Char} (h : Refers name c) :
    ∀ d ∈ name, d ≠ ';' ∧ d ≠ '&' ∧ d ≠ '<' := by
  intro d hd
  have hm := h.not_mem_marks d hd
  refine ⟨?_, ?_, ?_⟩ <;> rintro rfl <;> exact hm (by decide)

/-! ### Values -/

theorem unescapeFrom_reference {name : List Char} (hn : ∀ d ∈ name, d ≠ ';' ∧ d ≠ '&' ∧ d ≠ '<')
    (done raw : List Char) :
    unescapeFrom (some done) (name ++ ';' :: raw) =
      (resolve? (done.reverse ++ name)).bind fun d => (unescapeFrom none raw).map (d :: ·) := by
  induction name generalizing done with
  | nil => simp [unescapeFrom]
  | cons d r ih =>
    obtain ⟨hs, ha, -⟩ := hn d List.mem_cons_self
    rw [List.cons_append, unescapeFrom, if_neg hs, if_neg ha,
      ih (fun e he => hn e (List.mem_cons_of_mem d he))]
    simp

theorem Spells.unescape? {s raw : List Char} (h : Spells s raw) : unescape? raw = some s := by
  rw [Xml.unescape?]
  induction h with
  | nil => rfl
  | literal h hs ih => rw [unescapeFrom, if_neg h, ih, Option.map_some]
  | @reference name c s raw h hs ih =>
    rw [unescapeFrom, if_pos rfl, unescapeFrom_reference h.forall_ne, ih]
    simp [h.resolve?]

/-! ### Attributes -/

theorem isNameChar_spec {c : Char} (h : isNameChar c = true) :
    isSpace c = false ∧ isQuote c = false ∧ c ∉ "<>/=&!?@".toList := by
  simp only [isNameChar, isQuote, Bool.and_eq_true, Bool.not_eq_true', List.contains_eq_mem,
    decide_eq_false_iff_not] at h ⊢
  obtain ⟨hs, hm⟩ := h
  simp only [String.reduceToList, List.mem_cons, List.not_mem_nil, or_false, not_or] at hm ⊢
  simp [hs, hm]

theorem IsName.exists_cons {name : List Char} (h : IsName name) :
    ∃ c r, name = c :: r ∧ isNameChar c = true ∧ ∀ d ∈ r, isNameChar d = true := by
  obtain ⟨hne, hall⟩ := h
  cases name with
  | nil => exact absurd rfl hne
  | cons c r =>
    obtain ⟨hc, hr⟩ := List.forall_mem_cons.mp hall
    exact ⟨c, r, rfl, hc, hr⟩

section Split

attribute [local simp] splitAttributes

/-- Blanks are passed over where a single one is. -/
theorem splitAttributes_blanks {mode : AttributeMode} {blanks : List Char}
    (hm : ∀ c r, isSpace c = true → splitAttributes mode (c :: r) = splitAttributes mode r)
    (h : Blanks blanks) (text : List Char) :
    splitAttributes mode (blanks ++ text) = splitAttributes mode text := by
  induction blanks with
  | nil => rfl
  | cons c r ih =>
    rw [List.cons_append, hm c _ (h c List.mem_cons_self)]
    exact ih fun d hd => h d (List.mem_cons_of_mem c hd)

theorem splitAttributes_gap {blanks : List Char} (h : Blanks blanks) (text : List Char) :
    splitAttributes .gap (blanks ++ text) = splitAttributes .gap text := by
  apply splitAttributes_blanks _ h
  intro c r hc
  rw [splitAttributes, if_pos hc]

theorem splitAttributes_key {r : List Char} (h : ∀ d ∈ r, isNameChar d = true)
    (done text : List Char) :
    splitAttributes (.key done) (r ++ text) = splitAttributes (.key (r.reverse ++ done)) text := by
  induction r generalizing done with
  | nil => rfl
  | cons d r ih =>
    obtain ⟨hs, -, hm⟩ := isNameChar_spec (h d List.mem_cons_self)
    have he : d ≠ '=' := by
      rintro rfl
      exact hm (by decide)
    rw [List.cons_append, splitAttributes, if_neg he, if_neg (by simp [hs]),
      ih (fun e hd => h e (List.mem_cons_of_mem d hd))]
    simp

theorem splitAttributes_afterKey {blanks : List Char} (h : Blanks blanks) (key text : List Char) :
    splitAttributes (.afterKey key) (blanks ++ '=' :: text) =
      splitAttributes (.afterEquals key) text := by
  rw [splitAttributes_blanks _ h]
  · rfl
  · intro c r hc
    rw [splitAttributes, if_pos hc]

theorem splitAttributes_equals {blanks : List Char} (h : Blanks blanks) (done text : List Char) :
    splitAttributes (.key done) (blanks ++ '=' :: text) =
      splitAttributes (.afterEquals done.reverse) text := by
  cases blanks with
  | nil => rfl
  | cons c r =>
    have hc : isSpace c = true := h c List.mem_cons_self
    have he : c ≠ '=' := by
      rintro rfl
      exact absurd hc (by decide)
    rw [List.cons_append, splitAttributes, if_neg he, if_pos hc]
    exact splitAttributes_afterKey (fun d hd => h d (List.mem_cons_of_mem c hd)) _ _

theorem splitAttributes_afterEquals {blanks : List Char} (h : Blanks blanks) {quote : Char}
    (hq : isQuote quote = true) (key text : List Char) :
    splitAttributes (.afterEquals key) (blanks ++ quote :: text) =
      splitAttributes (.value key quote []) text := by
  have hs : isSpace quote = false := by
    simp only [isQuote, Bool.or_eq_true, decide_eq_true_eq] at hq
    rcases hq with rfl | rfl <;> decide
  rw [splitAttributes_blanks _ h]
  · rw [splitAttributes, if_neg (by simp [hs]), if_pos hq]
  · intro c r hc
    rw [splitAttributes, if_pos hc]

theorem splitAttributes_value {quote : Char} {raw : List Char} (h : quote ∉ raw)
    (key done text : List Char) :
    splitAttributes (.value key quote done) (raw ++ quote :: text) =
      { splitAttributes .gap text with
        list := ⟨key, done.reverse ++ raw⟩ :: (splitAttributes .gap text).list } := by
  induction raw generalizing done with
  | nil => simp
  | cons c r ih =>
    rw [List.mem_cons, not_or] at h
    rw [List.cons_append, splitAttributes, if_neg (Ne.symm h.1), ih h.2]
    simp

/-- The text of attributes splits into them. -/
theorem AttributesText.splitAttributes_eq {as : List Attribute} {text : List Char}
    (h : AttributesText as text) : splitAttributes .gap text = ⟨as, true⟩ := by
  induction h with
  | nil h => simpa using splitAttributes_gap h []
  | @cons gap key before after raw text quote as hg hn hk hb ha hq hr hs ih =>
    obtain ⟨c, r, rfl, hc, hd⟩ := hk.exists_cons
    have hsc : isSpace c = false := (isNameChar_spec hc).1
    rw [List.append_assoc, List.append_assoc, splitAttributes_gap hg, List.cons_append,
      splitAttributes, if_neg (by simp [hsc]), splitAttributes_key hd, splitAttributes_equals hb,
      splitAttributes_afterEquals ha hq, splitAttributes_value hr, ih]
    simp

end Split

theorem blanks_nil : Blanks [] := by decide

theorem AttributesText.cons_setting (key : String) (quote : Char) (raw : List Char)
    {text : List Char} {as : List Attribute} (hk : IsName key.toList)
    (hq : isQuote quote = true) (hr : quote ∉ raw) (h : AttributesText as text) :
    AttributesText (⟨key.toList, raw⟩ :: as) (setting key quote raw ++ text) := by
  have hgap : Blanks [' '] := by decide
  simpa [setting] using AttributesText.cons hgap (by decide) hk blanks_nil blanks_nil hq hr h

theorem cutAtRepeat_of_nodup (wellFormed : Bool) {seen : List (List Char)} {as : List Attribute}
    (hd : (as.map (·.key)).Nodup) (hs : ∀ a ∈ as, a.key ∉ seen) :
    cutAtRepeat wellFormed seen as = ⟨as, wellFormed⟩ := by
  induction as generalizing seen with
  | nil => rfl
  | cons a r ih =>
    rw [List.map_cons, List.nodup_cons] at hd
    have hr : ∀ b ∈ r, b.key ∉ a.key :: seen := by
      intro b hb hm
      rcases List.mem_cons.mp hm with he | hm
      · exact hd.1 (he ▸ List.mem_map_of_mem hb)
      · exact hs b (List.mem_cons_of_mem a hb) hm
    rw [cutAtRepeat, if_neg (hs a List.mem_cons_self), ih hd.2 hr]

theorem IsTag.attributesOf_eq {allowed : List Attribute → Prop} {name text : List Char}
    {as : List Attribute} (h : IsTag allowed name as text) : attributesOf text = ⟨as, true⟩ := by
  simp only [attributesOf, h.attributes.splitAttributes_eq]
  exact cutAtRepeat_of_nodup true h.distinct (by simp)

/-! ### Namespaces -/

theorem bound?_eq_some {key p : List Char} (h : bound? key = some p) :
    key = "xmlns:".toList ++ p := by
  unfold bound? at h
  split at h
  · cases h
    rfl
  · cases h

/-- Ordinary attributes bind nothing. -/
theorem PlainAttributes.keepsReserved {as : List Attribute} (h : PlainAttributes as) :
    KeepsReserved as := by
  intro a ha p hp
  have hcolon : ':' ∉ a.key := (h a ha).2
  rw [hp] at hcolon
  exact absurd (List.mem_append_left p (by decide)) hcolon

theorem PlainAttributes.isTag {name text : List Char} {as : List Attribute}
    (h : PlainAttributes as) (hn : IsName name) (ha : AttributesText as text)
    (hd : (as.map (·.key)).Nodup) : IsTag KeepsReserved name as text :=
  ⟨hn, ha, hd, h.keepsReserved⟩

theorem AttributesText.bindsSoundly {as : List Attribute} {text : List Char}
    (h : AttributesText as text) (hk : KeepsReserved as) : bindsSoundly text = true := by
  rw [Xml.bindsSoundly, h.splitAttributes_eq, List.all_eq_true]
  intro a ha
  cases hb : bound? a.key with
  | none => rfl
  | some p => exact hk a ha p (bound?_eq_some hb)

end CamelLint.Xml
