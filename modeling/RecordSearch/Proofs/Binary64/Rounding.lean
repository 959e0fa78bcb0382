import Mathlib.Algebra.Group.Nat.Defs
import RecordSearch.Binary64

/-!
# Rounding

Rounding depends on the quotient only, and a magnitude on the ladder rounds to
its own rank: `nearestRank_unitsAt`.
-/

namespace RecordSearch.Binary64

/-! ## Quotients -/

theorem roundQuotient_mul (num den : Nat) {k : Nat} (hk : 0 < k) :
    roundQuotient (num * k) (den * k) = roundQuotient num den := by
  have hlt : ∀ a b, a * k < b * k ↔ a < b := fun a b => Nat.mul_lt_mul_right hk
  simp only [roundQuotient, Nat.mul_div_mul_right _ _ hk, Nat.mul_mod_mul_right, ← Nat.mul_assoc, hlt]

theorem roundQuotient_one (n : Nat) : roundQuotient n 1 = n := by
  simp [roundQuotient, Nat.mod_one]

theorem nearestRank_mul (num den : Nat) {k : Nat} (hk : 0 < k) :
    nearestRank (num * k) (den * k) = nearestRank num den := by
  have hshift : ∀ d, (den * k) <<< d = (den <<< d) * k := fun d => by
    rw [Nat.shiftLeft_eq, Nat.shiftLeft_eq, Nat.mul_right_comm]
  simp only [nearestRank, Nat.mul_div_mul_right _ _ hk, hshift, roundQuotient_mul _ _ hk]

/-! ## The ladder -/

theorem stretchLength_eq : stretchLength = 2 ^ 52 := rfl

theorem unitsAt_low {r : Nat} (h : r < stretchLength) : unitsAt r = r := by
  simp [unitsAt, Nat.div_eq_of_lt h]

/-- After the first stretch a magnitude is 53 binary digits and a doubling for
every further stretch. -/
theorem unitsAt_high {r : Nat} (h : stretchLength ≤ r) : ∃ m d, stretchLength ≤ m ∧
    m < 2 * stretchLength ∧ r = d * stretchLength + m ∧ unitsAt r = m * 2 ^ d := by
  have hq : 1 ≤ r / stretchLength := (Nat.le_div_iff_mul_le (by decide)).mpr (by omega)
  have hf : r % stretchLength < stretchLength := Nat.mod_lt _ (by decide)
  obtain ⟨d, hd⟩ : ∃ d, r / stretchLength = d + 1 := ⟨r / stretchLength - 1, by omega⟩
  have hr : r = d * stretchLength + (stretchLength + r % stretchLength) := by
    have := Nat.div_add_mod r stretchLength
    rw [hd, Nat.mul_add, Nat.mul_one, Nat.mul_comm] at this
    omega
  refine ⟨stretchLength + r % stretchLength, d, by omega, by omega, hr, ?_⟩
  rw [unitsAt, hd, Nat.add_sub_cancel, Nat.shiftLeft_eq]
  congr 1
  omega

theorem log2_unitsAt {m d : Nat} (hm : stretchLength ≤ m) (hm' : m < 2 * stretchLength) :
    (m * 2 ^ d).log2 = 52 + d := by
  have hne : m * 2 ^ d ≠ 0 := Nat.mul_ne_zero (by rw [stretchLength_eq] at hm; omega) (by simp)
  rw [Nat.log2_eq_iff hne]
  rw [stretchLength_eq] at hm hm'
  refine ⟨?_, ?_⟩
  · rw [Nat.pow_add]
    exact Nat.mul_le_mul_right _ hm
  · rw [show 52 + d + 1 = 53 + d by omega, Nat.pow_add]
    exact Nat.mul_lt_mul_of_pos_right hm' (Nat.two_pow_pos d)

/-- A magnitude on the ladder rounds to its own rank. -/
theorem nearestRank_unitsAt (r : Nat) : nearestRank (unitsAt r) 1 = r := by
  rcases Nat.lt_or_ge r stretchLength with h | h
  · have hlog : r.log2 - 52 = 0 := by
      by_cases hr : r = 0
      · subst hr; rfl
      · have := (Nat.log2_lt hr).mpr (stretchLength_eq ▸ h)
        omega
    rw [unitsAt_low h, nearestRank, Nat.div_one, hlog]
    simp [roundQuotient_one]
  · obtain ⟨m, d, hm, hm', hr, hu⟩ := unitsAt_high h
    have hd : 52 + d - 52 = d := by omega
    rw [hu, nearestRank, Nat.div_one, log2_unitsAt hm hm', hd]
    simp only [Nat.one_shiftLeft]
    have hq := roundQuotient_mul m 1 (Nat.two_pow_pos d)
    rw [Nat.one_mul, roundQuotient_one] at hq
    rw [hq, hr]

end RecordSearch.Binary64
