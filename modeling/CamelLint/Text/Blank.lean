/-! Blank characters and trimming: the property `White_Space` of Unicode, and the
removal of blanks from both ends of a text. -/

namespace CamelLint.Text

def isBlank (c : Char) : Bool :=
  let n := c.toNat
  (0x09 ≤ n && n ≤ 0x0D) || n == 0x20 || n == 0x85 || n == 0xA0 || n == 0x1680 ||
    (0x2000 ≤ n && n ≤ 0x200A) || n == 0x2028 || n == 0x2029 || n == 0x202F || n == 0x205F ||
    n == 0x3000

theorem isBlank_of_isWhitespace {c : Char} (h : c.isWhitespace = true) : isBlank c = true := by
  simp only [Char.isWhitespace, Bool.or_eq_true, decide_eq_true_eq] at h
  rcases h with ((rfl | rfl) | rfl) | rfl <;> decide

def trimStart (s : List Char) : List Char := s.dropWhile isBlank

def trimEnd (s : List Char) : List Char := (trimStart s.reverse).reverse

/-- The text without the blanks before its first and after its last other character. -/
def trim (s : List Char) : List Char := trimEnd (trimStart s)

@[simp] theorem trim_nil : trim [] = [] := rfl

/-- The maximal stretches of a text that are free of `separator`, in order. A text
without the separator is one segment, the empty text included. -/
def segments (separator : Char) : List Char → List (List Char)
  | [] => [[]]
  | c :: r =>
    if c = separator then [] :: segments separator r
    else
      match segments separator r with
      | [] => [[c]]
      | s :: rest => (c :: s) :: rest

theorem segments_ne_nil (separator : Char) (s : List Char) : segments separator s ≠ [] := by
  cases s with
  | nil => simp [segments]
  | cons c r =>
    rw [segments]
    split
    · simp
    · split <;> simp

/-- Joining the segments again with the separator gives the text back. -/
theorem intercalate_segments (separator : Char) (s : List Char) :
    [separator].intercalate (segments separator s) = s := by
  induction s with
  | nil => rfl
  | cons c r ih =>
    by_cases h : c = separator
    · cases hs : segments separator r with
      | nil => exact absurd hs (segments_ne_nil separator r)
      | cons a l => simp_all [segments, List.intercalate]
    · cases hs : segments separator r with
      | nil => exact absurd hs (segments_ne_nil separator r)
      | cons a l =>
        simp only [segments, h, if_false, hs]
        rw [hs] at ih
        cases l <;> simp_all [List.intercalate]

end CamelLint.Text
