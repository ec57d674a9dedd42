import Mathlib.Data.String.Basic
import Mathlib.Tactic.SplitIfs

/-! The order of texts. Texts are compared code point by code point, and comparing their
bytes in UTF-8 comes to the same. Both are ways of writing characters as lists of
numbers such that of two characters the smaller one is decided on before its list
ends, whatever follows. -/

namespace CamelLint.Text

/-- The code points of a text. -/
def codePoints (s : String) : List Nat := s.toList.map Char.toNat

/-- The bytes of a text in UTF-8. -/
def utf8Bytes (s : String) : List UInt8 := s.toUTF8.data.toList

/-! ### Characters written as lists -/

section Writing

variable {α : Type} [LT α] {f : Char → List α}

/-- Of two characters the smaller one has the smaller list, and no list goes on where
another ends. -/
structure KeepsOrder (f : Char → List α) : Prop where
  ne_nil : ∀ c, f c ≠ []
  append_lt : ∀ {c d : Char}, c < d → ∀ x y, f c ++ x < f d ++ y

theorem KeepsOrder.flatMap_lt (h : KeepsOrder f) {s t : List Char} (hst : s < t) :
    s.flatMap f < t.flatMap f := by
  induction hst with
  | @nil c r =>
    obtain ⟨a, l, ha⟩ := List.exists_cons_of_ne_nil (h.ne_nil c)
    rw [List.flatMap_nil, List.flatMap_cons, ha]
    exact List.nil_lt_cons a _
  | @rel c s d t hcd =>
    rw [List.flatMap_cons, List.flatMap_cons]
    exact h.append_lt hcd _ _
  | cons _ ih =>
    rw [List.flatMap_cons, List.flatMap_cons]
    exact List.append_left_lt ih

theorem KeepsOrder.flatMap_lt_iff [Std.Asymm (fun a b : α => a < b)] (h : KeepsOrder f)
    {s t : List Char} : s.flatMap f < t.flatMap f ↔ s < t := by
  refine ⟨fun hlt => ?_, h.flatMap_lt⟩
  rcases lt_trichotomy s t with hst | rfl | hts
  · exact hst
  · exact absurd hlt (List.lt_asymm hlt)
  · exact absurd (h.flatMap_lt hts) (List.lt_asymm hlt)

end Writing

/-! ### Code points -/

theorem keepsOrder_singleton : KeepsOrder fun c : Char => [c.toNat] where
  ne_nil _ := List.cons_ne_nil _ _
  append_lt h _ _ := List.cons_lt_cons_iff.mpr (.inl h)

theorem codePoints_lt_iff {s t : String} : codePoints s < codePoints t ↔ s < t := by
  rw [codePoints, codePoints, List.map_eq_flatMap, List.map_eq_flatMap,
    keepsOrder_singleton.flatMap_lt_iff, String.lt_iff]

/-! ### Bytes -/

theorem utf8Bytes_eq_flatMap (s : String) :
    utf8Bytes s = s.toList.flatMap String.utf8EncodeChar := by
  rw [utf8Bytes, String.toUTF8_eq_toByteArray, ← String.utf8Encode_toList, List.utf8Encode,
    List.toList_data_toByteArray]

theorem ofNat_cons_lt_iff {m n : Nat} (hm : m < 256) (hn : n < 256) {l r : List UInt8} :
    UInt8.ofNat m :: l < UInt8.ofNat n :: r ↔ m < n ∨ m = n ∧ l < r := by
  rw [List.cons_lt_cons_iff, UInt8.lt_iff_toNat_lt, ← UInt8.toNat_inj,
    UInt8.toNat_ofNat_of_lt' hm, UInt8.toNat_ofNat_of_lt' hn]

theorem three_digits_lt {m n : Nat} (h : m < n) :
    m / 4096 < n / 4096 ∨ m / 4096 = n / 4096 ∧
      (m / 64 % 64 < n / 64 % 64 ∨ m / 64 % 64 = n / 64 % 64 ∧ m % 64 < n % 64) := by
  omega

/-- Of the digits to the base 64, the first that differs decides. -/
theorem four_digits_lt {m n : Nat} (h : m < n) :
    m / 262144 < n / 262144 ∨ m / 262144 = n / 262144 ∧
      (m / 4096 % 64 < n / 4096 % 64 ∨ m / 4096 % 64 = n / 4096 % 64 ∧
        (m / 64 % 64 < n / 64 % 64 ∨ m / 64 % 64 = n / 64 % 64 ∧ m % 64 < n % 64)) := by
  have hthree := three_digits_lt h
  omega

theorem utf8EncodeChar_append_lt {c d : Char} (h : c < d) (x y : List UInt8) :
    String.utf8EncodeChar c ++ x < String.utf8EncodeChar d ++ y := by
  have hlt : c.val.toNat < d.val.toNat := h
  have hd : d.val.toNat < 0x110000 := by
    rcases d.valid with h | ⟨-, h⟩ <;> omega
  have hfour := four_digits_lt hlt
  have hleadc : c.val.toNat / 262144 % 8 = c.val.toNat / 262144 := Nat.mod_eq_of_lt (by omega)
  have hleadd : d.val.toNat / 262144 % 8 = d.val.toNat / 262144 := Nat.mod_eq_of_lt (by omega)
  -- A shorter encoding has a smaller first byte. In encodings of one length the digits decide.
  simp only [String.utf8EncodeChar, hleadc, hleadd]
  split_ifs <;>
    simp (disch := omega) only [List.cons_append, List.nil_append, ofNat_cons_lt_iff] <;>
    omega

theorem keepsOrder_utf8EncodeChar : KeepsOrder String.utf8EncodeChar where
  ne_nil _ := String.utf8EncodeChar_ne_nil
  append_lt h x y := utf8EncodeChar_append_lt h x y

theorem utf8Bytes_lt_iff {s t : String} : utf8Bytes s < utf8Bytes t ↔ s < t := by
  rw [utf8Bytes_eq_flatMap, utf8Bytes_eq_flatMap, keepsOrder_utf8EncodeChar.flatMap_lt_iff,
    String.lt_iff]

end CamelLint.Text
