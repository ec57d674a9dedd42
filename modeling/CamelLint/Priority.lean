/-! The urgency of a rule. The scale runs from 1 to 10; the value is kept in one
byte, and only `ofNat?` holds it to the scale. -/

namespace CamelLint

structure Priority where
  value : UInt8
  deriving DecidableEq, Repr

namespace Priority

def lowest : Priority := ⟨1⟩

def highest : Priority := ⟨10⟩

def onScale (p : Priority) : Bool := 1 ≤ p.value && p.value ≤ 10

/-- The priority of a number on the scale. -/
def ofNat? (n : Nat) : Option Priority :=
  if 1 ≤ n ∧ n ≤ 10 then some ⟨n.toUInt8⟩ else none

def toNat (p : Priority) : Nat := p.value.toNat

theorem mk_toUInt8_eq_iff {n : Nat} {p : Priority} (h : n < 256) :
    (⟨n.toUInt8⟩ : Priority) = p ↔ p.toNat = n := by
  obtain ⟨b⟩ := p
  have hn : n.toUInt8.toNat = n := UInt8.toNat_ofNat_of_lt h
  rw [mk.injEq, ← UInt8.toNat_inj, hn, toNat, eq_comm]

theorem onScale_iff {p : Priority} : p.onScale = true ↔ 1 ≤ p.toNat ∧ p.toNat ≤ 10 := by
  rw [onScale, Bool.and_eq_true, decide_eq_true_iff, decide_eq_true_iff,
    UInt8.le_iff_toNat_le, UInt8.le_iff_toNat_le]
  rfl

theorem ofNat?_eq_some_iff {n : Nat} {p : Priority} :
    ofNat? n = some p ↔ p.onScale = true ∧ p.toNat = n := by
  rw [ofNat?, onScale_iff]
  constructor
  · intro h
    split at h
    next hn =>
      have hp : p.toNat = n := (mk_toUInt8_eq_iff (by omega)).mp (Option.some.inj h)
      exact ⟨hp ▸ hn, hp⟩
    next => cases h
  · rintro ⟨hn, rfl⟩
    rw [if_pos hn, (mk_toUInt8_eq_iff (by omega)).mpr rfl]

def display (p : Priority) : String := toString p.toNat

def max? : List Priority → Option Priority
  | [] => none
  | p :: r => some (r.foldl (fun a b => if a.value ≤ b.value then b else a) p)

def min? : List Priority → Option Priority
  | [] => none
  | p :: r => some (r.foldl (fun a b => if b.value < a.value then b else a) p)

end Priority

end CamelLint
