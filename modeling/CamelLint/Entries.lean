/-! Entries under text keys, in ascending order of the keys by code points, each
key once. Writing under a key that is there replaces its value. -/

namespace CamelLint

abbrev Entries (α : Type) := List (String × α)

namespace Entries

variable {α : Type}

def get? (key : String) : Entries α → Option α
  | [] => none
  | (k, v) :: r => if key = k then some v else get? key r

def insert (key : String) (value : α) : Entries α → Entries α
  | [] => [(key, value)]
  | (k, v) :: r =>
    if key = k then (key, value) :: r
    else if key < k then (key, value) :: (k, v) :: r
    else (k, v) :: insert key value r

/-- The entries after all the writes, in order. -/
def ofList (writes : List (String × α)) : Entries α :=
  writes.foldl (fun m w => insert w.1 w.2 m) []

@[simp] theorem get?_nil (key : String) : get? key ([] : Entries α) = none := rfl

theorem get?_insert (key other : String) (value : α) (m : Entries α) :
    get? other (insert key value m) = if other = key then some value else get? other m := by
  induction m with
  | nil => simp [insert, get?]
  | cons e r ih =>
    obtain ⟨k, v⟩ := e
    by_cases h : key = k
    · subst h
      by_cases ho : other = key <;> simp [insert, get?, ho]
    · by_cases hl : key < k
      · simp [insert, get?, h, hl]
      · by_cases ho : other = k
        · subst ho
          simp [insert, get?, h, hl, Ne.symm h]
        · simp [insert, get?, h, hl, ho, ih]

end Entries

end CamelLint
