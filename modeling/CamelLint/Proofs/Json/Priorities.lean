import CamelLint.Json.Decode

/-! Priorities read from data. The ends of the scale and the numbers that are checked are
on the scale from 1 to 10, but reading checks the width only: any byte is read as a
priority, and those off the scale are exactly the ones that a check would refuse. -/

namespace CamelLint.Json

theorem decodePriority_eq_ok_iff {v : Json} {p : Priority} :
    decodePriority v = .ok p ↔ v = .integer p.toNat := by
  have hbyte : p.toNat < 256 := p.value.toNat_lt
  constructor
  · intro h
    unfold decodePriority at h
    split at h
    · next n =>
      split at h
      · next hn =>
        have hp : p.toNat = n.toNat :=
          (Priority.mk_toUInt8_eq_iff (by omega)).mp (Except.ok.inj h)
        rw [hp, Int.toNat_of_nonneg hn.1]
      · cases h
    · cases h
  · rintro rfl
    have hp : (⟨p.toNat.toUInt8⟩ : Priority) = p := (Priority.mk_toUInt8_eq_iff hbyte).mpr rfl
    rw [decodePriority, if_pos (by omega), Int.toNat_natCast, hp]

/-- An integer of one byte that is not on the scale. -/
def IsByteOffScale (v : Json) : Prop := ∃ n : Nat, v = .integer n ∧ (n = 0 ∨ 10 < n ∧ n < 256)

theorem exists_decodePriority_off_scale_iff (v : Json) :
    (∃ p, decodePriority v = .ok p ∧ p.onScale = false) ↔ IsByteOffScale v := by
  simp only [← Bool.not_eq_true, Priority.onScale_iff, decodePriority_eq_ok_iff, IsByteOffScale]
  constructor
  · rintro ⟨p, rfl, hp⟩
    have hbyte : p.toNat < 256 := p.value.toNat_lt
    exact ⟨p.toNat, rfl, by omega⟩
  · rintro ⟨n, rfl, hn⟩
    have hp : (⟨n.toUInt8⟩ : Priority).toNat = n := (Priority.mk_toUInt8_eq_iff (by omega)).mp rfl
    exact ⟨⟨n.toUInt8⟩, by rw [hp], by omega⟩

/-- On the scale, a value is read as the priority that the check gives for it. -/
theorem decodePriority_ok_onScale_iff {v : Json} {p : Priority} :
    decodePriority v = .ok p ∧ p.onScale = true ↔
      ∃ n : Nat, v = .integer n ∧ Priority.ofNat? n = some p := by
  simp only [decodePriority_eq_ok_iff, Priority.ofNat?_eq_some_iff]
  constructor
  · rintro ⟨hv, hp⟩
    exact ⟨p.toNat, hv, hp, rfl⟩
  · rintro ⟨n, hv, hp, rfl⟩
    exact ⟨hv, hp⟩

/-- Reading takes any byte. It agrees with the check, and stays on the scale, for all values but
the bytes off the scale, while the ends of the scale and all that is checked are on it. -/
theorem decodePriority_against_scale (v : Json) :
    (∀ p, decodePriority v = .ok p ↔ v = .integer p.toNat) ∧
    ((∀ p, decodePriority v = .ok p ↔
      ∃ n : Nat, v = .integer n ∧ Priority.ofNat? n = some p) ↔ ¬ IsByteOffScale v) ∧
    ((∃ p, decodePriority v = .ok p ∧ p.onScale = false) ↔ IsByteOffScale v) ∧
    ∀ p : Priority, p = .lowest ∨ p = .highest ∨ (∃ n, Priority.ofNat? n = some p) →
      p.onScale = true := by
  have hoff := exists_decodePriority_off_scale_iff v
  refine ⟨fun p => decodePriority_eq_ok_iff, ?_, hoff, ?_⟩
  · simp only [← decodePriority_ok_onScale_iff, ← hoff]
    constructor
    · rintro h ⟨p, hp, hscale⟩
      rw [((h p).mp hp).2] at hscale
      cases hscale
    · intro h p
      refine ⟨fun hp => ⟨hp, ?_⟩, And.left⟩
      rw [← Bool.not_eq_false]
      exact fun hscale => h ⟨p, hp, hscale⟩
  · rintro p (rfl | rfl | ⟨n, hn⟩)
    · rfl
    · rfl
    · exact (Priority.ofNat?_eq_some_iff.mp hn).1

/-- Ten is read as the check gives it, and what the check gives for ten is on the scale. -/
theorem decodePriority_ten :
    ¬ IsByteOffScale (.integer 10) ∧
    (∀ p, decodePriority (.integer 10) = .ok p ↔
      ∃ n : Nat, (.integer 10 : Json) = .integer n ∧ Priority.ofNat? n = some p) ∧
    Priority.ofNat? 10 = some .highest ∧ Priority.highest.onScale = true := by
  obtain ⟨-, hagree, -, hscale⟩ := decodePriority_against_scale (.integer 10)
  have hten : ¬ IsByteOffScale (.integer 10) := by
    rintro ⟨n, hn, hoff⟩
    have hn' : (10 : Int) = n := Json.integer.inj hn
    omega
  exact ⟨hten, hagree.mpr hten, rfl, hscale .highest (.inr (.inr ⟨10, rfl⟩))⟩

/-- Zero is read, and no check would give it. -/
theorem decodePriority_zero :
    decodePriority (.integer 0) = .ok ⟨0⟩ ∧ (⟨0⟩ : Priority).onScale = false ∧
      Priority.ofNat? 0 = none := ⟨rfl, rfl, rfl⟩

end CamelLint.Json
