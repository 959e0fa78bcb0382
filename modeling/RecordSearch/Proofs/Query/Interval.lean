import RecordSearch.Proofs.Query.NumberRange

/-!
# Ranges as intervals

A number meets the bounds of a range on a scale of its own: integers on that of
the integers, floating point numbers on that of the magnitudes they can have.
Bounds keep their order on either scale, so a wider range admits all that a
narrower one does, and what two ranges admit is what their common part admits:
`numericRange_interval`.
-/

namespace RecordSearch

open Binary64 (unitsAt rankOfNat)

namespace Number

/-! ## Scales -/

/-- Where a number stands on its scale. -/
def mark : Number → Int
  | .natural n => n.toNat
  | .negative m => Int.negSucc m
  | .real x => x.signedUnits

/-- Where a bound stands on the scale of a number. -/
def boundMark (k : Number) (bound : UInt64) : Int :=
  match k with
  | .real _ => unitsAt (rankOfNat bound.toNat)
  | _ => bound.toNat

theorem inRange_iff (k : Number) (min max : UInt64) :
    k.inRange min max = true ↔ k.boundMark min ≤ k.mark ∧ k.mark ≤ k.boundMark max := by
  cases k with
  | natural n => exact Query.inRange_int rfl min max
  | negative m => exact Query.inRange_int rfl min max
  | real x => exact Query.inRange_real

/-- Rounding may bring two bounds together, but never past one another. -/
theorem boundMark_mono (k : Number) {a b : UInt64} (h : a ≤ b) : k.boundMark a ≤ k.boundMark b := by
  have hn : a.toNat ≤ b.toNat := UInt64.le_iff_toNat_le.mp h
  cases k with
  | real x =>
    apply Int.ofNat_le.mpr
    exact Binary64.unitsAt_le_iff.mpr (Binary64.rankOfNat_mono hn)
  | _ => exact Int.ofNat_le.mpr hn

theorem boundMark_max (k : Number) (a b : UInt64) :
    k.boundMark (max a b) = max (k.boundMark a) (k.boundMark b) := by
  by_cases h : a ≤ b
  · rw [show max a b = b from if_pos h, Int.max_eq_right (k.boundMark_mono h)]
  · have hba := UInt64.le_of_lt (UInt64.not_le.mp h)
    rw [show max a b = a from if_neg h, Int.max_eq_left (k.boundMark_mono hba)]

theorem boundMark_min (k : Number) (a b : UInt64) :
    k.boundMark (min a b) = min (k.boundMark a) (k.boundMark b) := by
  by_cases h : a ≤ b
  · rw [show min a b = a from if_pos h, Int.min_eq_left (k.boundMark_mono h)]
  · have hba := UInt64.le_of_lt (UInt64.not_le.mp h)
    rw [show min a b = b from if_neg h, Int.min_eq_right (k.boundMark_mono hba)]

/-! ## Numbers in two ranges -/

section
variable {k : Number} {a₁ b₁ a₂ b₂ : UInt64}

theorem inRange_of_wider (ha : a₂ ≤ a₁) (hb : b₁ ≤ b₂) (h : k.inRange a₁ b₁ = true) :
    k.inRange a₂ b₂ = true := by
  rw [inRange_iff] at h ⊢
  constructor
  · exact Int.le_trans (k.boundMark_mono ha) h.1
  · exact Int.le_trans h.2 (k.boundMark_mono hb)

theorem inRange_both : k.inRange a₁ b₁ = true ∧ k.inRange a₂ b₂ = true ↔
    k.inRange (max a₁ a₂) (min b₁ b₂) = true := by
  simp only [inRange_iff, boundMark_max, boundMark_min]
  omega

end

end Number

/-! ## The main statement -/

namespace Query

/-- Moving the bounds of a range apart loses nothing that it admits, and two
ranges admit a value together exactly if the range from their larger lower bound
to their smaller upper one does, be it empty or not. -/
theorem numericRange_interval (a₁ b₁ a₂ b₂ : UInt64) (value : Option FieldValue) :
    (a₂ ≤ a₁ → b₁ ≤ b₂ → (Constraint.numericRange a₁ b₁).admits value = true →
      (Constraint.numericRange a₂ b₂).admits value = true) ∧
    ((Constraint.numericRange a₁ b₁).admits value = true ∧
      (Constraint.numericRange a₂ b₂).admits value = true ↔
      (Constraint.numericRange (max a₁ a₂) (min b₁ b₂)).admits value = true) := by
  simp only [admits_eq_true]
  refine ⟨?_, ?_, ?_⟩
  · intro ha hb h
    obtain ⟨k, hk, hr⟩ := h
    exact ⟨k, hk, Number.inRange_of_wider ha hb hr⟩
  · intro h
    obtain ⟨⟨k, hk, hr₁⟩, l, hl, hr₂⟩ := h
    rw [hk] at hl
    cases hl
    exact ⟨k, hk, Number.inRange_both.mp ⟨hr₁, hr₂⟩⟩
  · intro h
    obtain ⟨k, hk, hr⟩ := h
    obtain ⟨hr₁, hr₂⟩ := Number.inRange_both.mpr hr
    exact ⟨⟨k, hk, hr₁⟩, k, hk, hr₂⟩

/-- The bounds are neighbours beyond 2^53, so all four round to one number. -/
theorem numericRange_interval_neighbours :
    (9007199254740992 : UInt64) ≤ 9007199254740993 ∧
    (9007199254740992 : UInt64) ≤ 9007199254740993 ∧
    (Constraint.numericRange 9007199254740993 9007199254740992).admits
      (some (.number (.real ⟨false, 0x4340000000000000⟩))) = true ∧
    (Constraint.numericRange 9007199254740992 9007199254740993).admits
      (some (.number (.real ⟨false, 0x4340000000000000⟩))) = true := by
  have hnarrow : (Constraint.numericRange 9007199254740993 9007199254740992).admits
      (some (.number (.real ⟨false, 0x4340000000000000⟩))) = true := by decide +kernel
  exact ⟨by decide, by decide, hnarrow,
    (numericRange_interval _ _ _ _ _).1 (by decide) (by decide) hnarrow⟩

end Query

end RecordSearch
