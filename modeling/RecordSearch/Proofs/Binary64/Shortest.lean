import RecordSearch.Binary64.Shortest
import RecordSearch.Proofs.Binary64.Rounding

/-!
# Digits that read back

`rankOfDecimal_shortest`: the digits found for a magnitude read back as it. A
hit was tested; where the search finds none, all digits of the magnitude are
given, and these are exact.
-/

namespace RecordSearch.Binary64

/-! ## Decimals near the ladder -/

theorem rankOfDecimal_zero (e : Int) : rankOfDecimal 0 e = 0 := by rw [rankOfDecimal, if_pos rfl]

theorem rankOfDecimal_eq {d : Nat} {e : Int} (hd : d ≠ 0) (hhigh : e ≤ 400)
    (hlow : e < 0 → 3 * e.natAbs ≤ d.log2 + 1200) :
    rankOfDecimal d e =
      nearestRank (d * 10 ^ e.toNat * unitsPerOne) (10 ^ (-e).toNat) := by
  rw [rankOfDecimal, if_neg hd, if_neg (by omega), if_neg fun h => by have := hlow h.1; omega]
  rfl

theorem rankOfDecimal_point {d : Nat} {e : Int} (h0 : 0 ≤ e) (h15 : e ≤ 15) :
    rankOfDecimal (d * 10 ^ (e.toNat + 1)) (-1) = rankOfDecimal d e := by
  by_cases hd : d = 0
  · subst hd
    rw [Nat.zero_mul, rankOfDecimal_zero, rankOfDecimal_zero]
  · have hd' : d * 10 ^ (e.toNat + 1) ≠ 0 := Nat.mul_ne_zero hd (by simp)
    have hscale := nearestRank_mul (d * 10 ^ e.toNat * unitsPerOne) 1 (k := 10) (by decide)
    have hnum : d * 10 ^ (e.toNat + 1) * 10 ^ (-1 : Int).toNat * unitsPerOne =
        d * 10 ^ e.toNat * unitsPerOne * 10 := by
      rw [show (-1 : Int).toNat = 0 from rfl, Nat.pow_zero, Nat.mul_one, Nat.pow_succ,
        ← Nat.mul_assoc, Nat.mul_right_comm]
    have hneg : (-e).toNat = 0 := by omega
    rw [rankOfDecimal_eq hd' (by omega) (by omega), rankOfDecimal_eq hd (by omega) (by omega), hnum,
      hneg]
    exact hscale

theorem log2_pow_five (n : Nat) : 2 * n ≤ (5 ^ n).log2 := by
  rw [Nat.le_log2 (Nat.ne_of_gt (Nat.pow_pos (by decide))), Nat.pow_mul]
  exact Nat.pow_le_pow_left (by decide) n

/-- If one whole is `n` doublings of a unit, fives for the digits and a divisor of
tens leave the units. -/
theorem rankOfDecimal_fives {u n : Nat} {e : Int} (hu : u ≠ 0) (hn : n ≤ 1200) (he : e = -n)
    (hone : unitsPerOne = 1 <<< n) : rankOfDecimal (u * Nat.pow 5 n) e = nearestRank u 1 := by
  have hpow : 5 ^ n ≠ 0 := Nat.ne_of_gt (Nat.pow_pos (by decide))
  have hd : u * 5 ^ n ≠ 0 := Nat.mul_ne_zero hu hpow
  have hlog : 2 * n ≤ (u * 5 ^ n).log2 := by
    rw [Nat.le_log2 hd]
    exact Nat.le_trans ((Nat.le_log2 hpow).mp (log2_pow_five n))
      (Nat.le_mul_of_pos_left _ (Nat.pos_of_ne_zero hu))
  have hscale := nearestRank_mul u 1 (k := 10 ^ n) (Nat.pow_pos (by decide))
  rw [Nat.one_mul] at hscale
  rw [Nat.pow_eq, rankOfDecimal_eq hd (by omega) (by omega), show e.toNat = 0 by omega,
    show (-e).toNat = n by omega, Nat.pow_zero, Nat.mul_one, hone, Nat.one_shiftLeft, Nat.mul_assoc,
    ← Nat.mul_pow]
  exact hscale

theorem rankOfDecimal_exact {r : Nat} (h : unitsAt r ≠ 0) :
    rankOfDecimal (exactDecimal (unitsAt r)).1 (exactDecimal (unitsAt r)).2 = r := by
  -- the number of doublings gets a name, so that none of its powers is computed
  obtain ⟨n, hn⟩ : ∃ n, 1074 = n := ⟨_, rfl⟩
  have hone : unitsPerOne = 1 <<< n := by rw [unitsPerOne, hn]
  rw [exactDecimal, hn, rankOfDecimal_fives h (by omega) (by omega) hone, nearestRank_unitsAt]

/-! ## The search -/

theorem unitsAt_ne_zero {r : Nat} (h : r ≠ 0) : unitsAt r ≠ 0 := by
  intro hu
  have := nearestRank_unitsAt r
  rw [hu] at this
  exact h (this ▸ rfl)

theorem rankOfDecimal_hit {r : Nat} {e : Int} {p : Nat × Int} (h : hit? r e = some p) :
    rankOfDecimal p.1 p.2 = r := by
  obtain ⟨d, hd, rfl⟩ := Option.map_eq_some_iff.mp h
  have := List.find?_some hd
  exact eq_of_beq this

/-- The digits found for a magnitude read back as it. -/
theorem rankOfDecimal_shortest {r : Nat} (h : r ≠ 0) :
    rankOfDecimal (shortest r).1 (shortest r).2 = r := by
  rw [shortest]
  cases hs : (List.range 40).findSome? fun i => hit? r (coarsest (unitsAt r) - (i : Nat)) with
  | none => exact rankOfDecimal_exact (unitsAt_ne_zero h)
  | some p =>
    obtain ⟨i, -, hi⟩ := List.exists_of_findSome?_eq_some hs
    exact rankOfDecimal_hit hi

theorem shortest_ne_zero {r : Nat} (h : r ≠ 0) : (shortest r).1 ≠ 0 := by
  intro hd
  have := rankOfDecimal_shortest h
  rw [hd, rankOfDecimal_zero] at this
  exact h this.symm

end RecordSearch.Binary64
