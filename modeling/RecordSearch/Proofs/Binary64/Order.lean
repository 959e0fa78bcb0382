import RecordSearch.Proofs.Binary64.Rounding

/-!
# Rounding keeps the order

A larger quotient never rounds to a smaller rank (`nearestRank_mono`), so the
ladder rises, and a magnitude on it that is on one side of a whole number is on
the same side of the magnitude nearest to it. The whole numbers up to 2^53 are
on the ladder themselves: `unitsAt_rankOfNat`.
-/

namespace RecordSearch.Binary64

/-! ## Quotients -/

theorem roundQuotient_eq (num den : Nat) : roundQuotient num den =
    if den < 2 * (num % den) ∨ 2 * (num % den) = den ∧ num / den % 2 = 1 then num / den + 1
    else num / den := by
  simp only [roundQuotient]
  split
  · rw [if_neg (by omega)]
  split
  · rw [if_pos (by omega)]
  split
  · rw [if_neg (by omega)]
  · rw [if_pos (by omega)]

theorem roundQuotient_bounds (num den : Nat) :
    num / den ≤ roundQuotient num den ∧ roundQuotient num den ≤ num / den + 1 := by
  rw [roundQuotient_eq]
  split <;> omega

theorem roundQuotient_mono {a b : Nat} (h : a ≤ b) (den : Nat) :
    roundQuotient a den ≤ roundQuotient b den := by
  rcases Nat.lt_or_ge (a / den) (b / den) with hlt | hge
  · have ha := roundQuotient_bounds a den
    have hb := roundQuotient_bounds b den
    omega
  · -- the quotients are equal, so the remainders decide
    have hq : a / den = b / den := Nat.le_antisymm (Nat.div_le_div_right h) hge
    have hr : a % den ≤ b % den := by
      have hda := Nat.div_add_mod a den
      have hdb := Nat.div_add_mod b den
      rw [hq] at hda
      omega
    rw [roundQuotient_eq, roundQuotient_eq, hq]
    by_cases hup : den < 2 * (a % den) ∨ 2 * (a % den) = den ∧ b / den % 2 = 1
    · exact Nat.le_of_eq (by rw [if_pos hup, if_pos (by omega)])
    · rw [if_neg hup]
      split <;> omega

/-! ## Ranks -/

theorem div_shiftLeft (num den d : Nat) : num / (den <<< d) = num / den / 2 ^ d := by
  rw [Nat.shiftLeft_eq, Nat.div_div_eq_div_mul]

theorem nearestRank_le {num den d : Nat} (hd : (num / den).log2 - 52 = d) :
    nearestRank num den ≤ (d + 2) * stretchLength := by
  have hlog : num / den < 2 ^ (53 + d) :=
    Nat.lt_of_lt_of_le Nat.lt_log2_self (Nat.pow_le_pow_right (by decide) (by omega))
  have hlow : num / (den <<< d) < 2 ^ 53 := by
    rw [div_shiftLeft, Nat.div_lt_iff_lt_mul (Nat.two_pow_pos d), ← Nat.pow_add]
    exact hlog
  have hround := roundQuotient_bounds num (den <<< d)
  simp only [nearestRank, hd]
  rw [stretchLength_eq, Nat.add_mul]
  omega

theorem le_nearestRank {num den d : Nat} (hd : (num / den).log2 - 52 = d + 1) :
    (d + 2) * stretchLength ≤ nearestRank num den := by
  have hne : num / den ≠ 0 := fun h => by
    rw [h] at hd
    simp at hd
  have hlog : 2 ^ (52 + (d + 1)) ≤ num / den :=
    Nat.le_trans (Nat.pow_le_pow_right (by decide) (by omega)) (Nat.log2_self_le hne)
  have hhigh : 2 ^ 52 ≤ num / (den <<< (d + 1)) := by
    rw [div_shiftLeft, Nat.le_div_iff_mul_le (Nat.two_pow_pos _), ← Nat.pow_add]
    exact hlog
  have hround := roundQuotient_bounds num (den <<< (d + 1))
  simp only [nearestRank, hd]
  rw [stretchLength_eq, Nat.add_mul, Nat.add_mul]
  omega

/-- Within a stretch the quotients decide; a later stretch begins where an earlier
one ends. -/
theorem nearestRank_mono {a b : Nat} (h : a ≤ b) (den : Nat) :
    nearestRank a den ≤ nearestRank b den := by
  have hq : a / den ≤ b / den := Nat.div_le_div_right h
  have hlog : (a / den).log2 ≤ (b / den).log2 := by
    by_cases hz : a / den = 0
    · rw [hz, Nat.log2_zero]
      exact Nat.zero_le _
    · rw [Nat.le_log2 (Nat.ne_of_gt (Nat.lt_of_lt_of_le (Nat.pos_of_ne_zero hz) hq))]
      exact Nat.le_trans (Nat.log2_self_le hz) hq
  rcases Nat.eq_or_lt_of_le (Nat.sub_le_sub_right hlog 52) with hd | hd
  · simp only [nearestRank, hd]
    exact Nat.add_le_add_left (roundQuotient_mono h _) _
  · obtain ⟨d, he⟩ : ∃ d, (b / den).log2 - 52 = d + 1 := ⟨(b / den).log2 - 52 - 1, by omega⟩
    have hstretch : ((a / den).log2 - 52 + 2) * stretchLength ≤ (d + 2) * stretchLength :=
      Nat.mul_le_mul_right _ (by omega)
    exact Nat.le_trans (nearestRank_le rfl) (Nat.le_trans hstretch (le_nearestRank he))

/-! ## The ladder rises -/

theorem le_of_unitsAt_le {r s : Nat} (h : unitsAt r ≤ unitsAt s) : r ≤ s := by
  have := nearestRank_mono h 1
  rwa [nearestRank_unitsAt, nearestRank_unitsAt] at this

theorem unitsAt_le_iff {r s : Nat} : unitsAt r ≤ unitsAt s ↔ r ≤ s := by
  refine ⟨le_of_unitsAt_le, fun h => ?_⟩
  rcases Nat.le_total (unitsAt r) (unitsAt s) with hu | hu
  · exact hu
  · exact Nat.le_of_eq (congrArg unitsAt (Nat.le_antisymm h (le_of_unitsAt_le hu)))

theorem unitsAt_rankOfNat_le {n r : Nat} (h : n * unitsPerOne ≤ unitsAt r) :
    unitsAt (rankOfNat n) ≤ unitsAt r := by
  have := nearestRank_mono h 1
  rw [nearestRank_unitsAt] at this
  exact unitsAt_le_iff.mpr this

theorem le_unitsAt_rankOfNat {n r : Nat} (h : unitsAt r ≤ n * unitsPerOne) :
    unitsAt r ≤ unitsAt (rankOfNat n) := by
  have := nearestRank_mono h 1
  rw [nearestRank_unitsAt] at this
  exact unitsAt_le_iff.mpr this

theorem rankOfNat_mono {m n : Nat} (h : m ≤ n) : rankOfNat m ≤ rankOfNat n :=
  nearestRank_mono (Nat.mul_le_mul_right _ h) 1

/-! ## Whole numbers on the ladder -/

theorem unitsAt_mantissa {m : Nat} (d : Nat) (hm : stretchLength ≤ m) (hm' : m < 2 * stretchLength) :
    unitsAt (d * stretchLength + m) = m * 2 ^ d := by
  have hq : (d * stretchLength + m) / stretchLength = d + 1 := by
    rw [Nat.div_eq_iff (by decide)]
    rw [stretchLength_eq] at *
    omega
  rw [unitsAt, hq, Nat.add_sub_cancel, Nat.shiftLeft_eq, Nat.add_sub_cancel_left]

/-- A positive number below 2^53 takes 53 binary digits after some doublings. -/
theorem exists_doublings {n : Nat} (hz : n ≠ 0) (h : n < 2 ^ 53) :
    ∃ k ≤ 52, stretchLength ≤ n * 2 ^ k ∧ n * 2 ^ k < 2 * stretchLength := by
  have hlog : n.log2 ≤ 52 := by
    have := (Nat.log2_lt hz).mpr h
    omega
  refine ⟨52 - n.log2, Nat.sub_le _ _, ?_, ?_⟩
  · have hlow := Nat.mul_le_mul_right (2 ^ (52 - n.log2)) (Nat.log2_self_le hz)
    rwa [← Nat.pow_add, show n.log2 + (52 - n.log2) = 52 by omega, ← stretchLength_eq] at hlow
  · have hhigh := Nat.mul_lt_mul_of_pos_right (Nat.lt_log2_self (n := n)) (Nat.two_pow_pos (52 - n.log2))
    rwa [← Nat.pow_add, show n.log2 + 1 + (52 - n.log2) = 52 + 1 by omega, Nat.pow_succ,
      ← stretchLength_eq, Nat.mul_comm stretchLength] at hhigh

theorem exists_unitsAt {n : Nat} (h : n ≤ 2 ^ 53) : ∃ r, unitsAt r = n * unitsPerOne := by
  -- the doublings of a unit get a name, so that none of their powers is computed
  obtain ⟨e, he⟩ : ∃ e, 1074 = e := ⟨_, rfl⟩
  rw [show unitsPerOne = 2 ^ e by rw [unitsPerOne, he, Nat.one_shiftLeft]]
  by_cases hz : n = 0
  · exact ⟨0, by rw [hz, Nat.zero_mul]; rfl⟩
  by_cases ht : n = 2 ^ 53
  · have hsum : 52 + (e + 1) = 53 + e := by omega
    refine ⟨(e + 1) * stretchLength + stretchLength, ?_⟩
    rw [unitsAt_mantissa (e + 1) (Nat.le_refl _) (by decide), ht, stretchLength_eq, ← Nat.pow_add,
      ← Nat.pow_add, hsum]
  · obtain ⟨k, hk, hlow, hhigh⟩ := exists_doublings hz (Nat.lt_of_le_of_ne h ht)
    have hsum : k + (e - k) = e := by omega
    refine ⟨(e - k) * stretchLength + n * 2 ^ k, ?_⟩
    rw [unitsAt_mantissa (e - k) hlow hhigh, Nat.mul_assoc, ← Nat.pow_add, hsum]

theorem unitsAt_rankOfNat {n : Nat} (h : n ≤ 2 ^ 53) : unitsAt (rankOfNat n) = n * unitsPerOne := by
  obtain ⟨r, hr⟩ := exists_unitsAt h
  rw [rankOfNat, ← hr, nearestRank_unitsAt]

theorem rankOfNat_lt {m n : Nat} (h : m < n) (hm : m < 2 ^ 53) :
    unitsAt (rankOfNat m) < unitsAt (rankOfNat n) := by
  have hnext : unitsAt (rankOfNat (m + 1)) = (m + 1) * unitsPerOne := unitsAt_rankOfNat hm
  have hone : 0 < unitsPerOne := by decide
  have hle := unitsAt_le_iff.mpr (rankOfNat_mono h)
  rw [hnext, Nat.add_mul, Nat.one_mul] at hle
  rw [unitsAt_rankOfNat (Nat.le_of_lt hm)]
  omega

/-! ## Signed numbers -/

theorem rounded_le_signedUnits {n : Nat} {x : Binary64}
    (h : ((n * unitsPerOne : Nat) : Int) ≤ x.signedUnits) :
    (unitsAt (rankOfNat n) : Int) ≤ x.signedUnits := by
  unfold signedUnits units at *
  by_cases hx : x.negative = true
  · -- only a zero is left, whatever its sign
    rw [if_pos hx] at h ⊢
    have := unitsAt_rankOfNat_le (n := n) (r := x.rank) (by omega)
    omega
  · rw [if_neg hx] at h ⊢
    have := unitsAt_rankOfNat_le (n := n) (r := x.rank) (by omega)
    omega

theorem signedUnits_le_rounded {n : Nat} {x : Binary64}
    (h : x.signedUnits ≤ ((n * unitsPerOne : Nat) : Int)) :
    x.signedUnits ≤ (unitsAt (rankOfNat n) : Int) := by
  unfold signedUnits units at *
  by_cases hx : x.negative = true
  · rw [if_pos hx]
    omega
  · rw [if_neg hx] at h ⊢
    have := le_unitsAt_rankOfNat (n := n) (r := x.rank) (by omega)
    omega

end RecordSearch.Binary64
