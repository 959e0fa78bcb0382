import Mathlib.Algebra.Order.Field.Basic
import Mathlib.Algebra.Order.Field.Rat
import RecordSearch.Proofs.Binary64.Order
import RecordSearch.Proofs.Query.IntegerRange

/-!
# Ranges of numbers

Numbers are taken at their exact value. A range admits every number that lies in
it, and what it admits lies in it as far as the bounds are compared exactly
(`numericRange_admits`). Bounds the wrong way round admit nothing but a floating
point number that both of them round to (`inverted_range_rejects`).
-/

namespace RecordSearch

open Binary64 (unitsAt rankOfNat unitsPerOne)

/-- The exact value of a number. -/
def Number.value : Number → ℚ
  | .natural n => n.toNat
  | .negative m => Int.negSucc m
  | .real x => x.signedUnits / unitsPerOne

namespace Query

/-! ## Values and units -/

theorem value_int {k : Number} {n : Int} (hk : k.int? = some n) : k.value = n := by
  cases k with
  | natural v =>
    simp only [Number.int?, Option.some.injEq] at hk
    simp [Number.value, ← hk]
  | negative m =>
    simp only [Number.int?, Option.some.injEq] at hk
    rw [Number.value, hk]
  | real x => cases hk

theorem unitsPerOne_pos : (0 : ℚ) < unitsPerOne := by
  have h : 0 < unitsPerOne := by decide
  exact_mod_cast h

theorem le_value_real {n : Nat} {x : Binary64} :
    (n : ℚ) ≤ (Number.real x).value ↔ ((n * unitsPerOne : Nat) : Int) ≤ x.signedUnits := by
  rw [Number.value, le_div_iff₀ unitsPerOne_pos]
  exact_mod_cast Iff.rfl

theorem value_real_le {n : Nat} {x : Binary64} :
    (Number.real x).value ≤ (n : ℚ) ↔ x.signedUnits ≤ ((n * unitsPerOne : Nat) : Int) := by
  rw [Number.value, div_le_iff₀ unitsPerOne_pos]
  exact_mod_cast Iff.rfl

theorem inRange_real {x : Binary64} {min max : UInt64} :
    (Number.real x).inRange min max = true ↔ (unitsAt (rankOfNat min.toNat) : Int) ≤ x.signedUnits ∧
      x.signedUnits ≤ unitsAt (rankOfNat max.toNat) := by
  simp [Number.inRange]

/-! ## Numbers in a range -/

theorem inRange_of_between {k : Number} {min max : UInt64} (hmin : (min.toNat : ℚ) ≤ k.value)
    (hmax : k.value ≤ max.toNat) : k.inRange min max = true := by
  cases hk : k.int? with
  | some n =>
    rw [value_int hk] at hmin hmax
    rw [inRange_int hk]
    exact ⟨by exact_mod_cast hmin, by exact_mod_cast hmax⟩
  | none =>
    cases k with
    | natural v => cases hk
    | negative m => cases hk
    | real x =>
      rw [inRange_real]
      exact ⟨Binary64.rounded_le_signedUnits (le_value_real.mp hmin),
        Binary64.signedUnits_le_rounded (value_real_le.mp hmax)⟩

/-- Integers are compared exactly, and bounds up to 2^53 stand for themselves. -/
theorem between_of_inRange {k : Number} {min max : UInt64} (h : k.inRange min max = true)
    (hexact : k.int?.isSome = true ∨ min.toNat ≤ 2 ^ 53 ∧ max.toNat ≤ 2 ^ 53) :
    (min.toNat : ℚ) ≤ k.value ∧ k.value ≤ max.toNat := by
  cases hk : k.int? with
  | some n =>
    obtain ⟨hmin, hmax⟩ := (inRange_int hk min max).mp h
    rw [value_int hk]
    exact ⟨by exact_mod_cast hmin, by exact_mod_cast hmax⟩
  | none =>
    cases k with
    | natural v => cases hk
    | negative m => cases hk
    | real x =>
      obtain ⟨hlow, hhigh⟩ := hexact.resolve_left (by simp [hk])
      rw [inRange_real, Binary64.unitsAt_rankOfNat hlow, Binary64.unitsAt_rankOfNat hhigh] at h
      exact ⟨le_value_real.mpr h.1, value_real_le.mpr h.2⟩

theorem admits_eq_true {min max : UInt64} {value : Option FieldValue} :
    (Constraint.numericRange min max).admits value = true ↔
      ∃ k, value = some (.number k) ∧ k.inRange min max = true := by
  unfold Constraint.admits
  dsimp only
  split
  · simp
  · rename_i hne
    simp only [Bool.false_eq_true, false_iff]
    intro h
    obtain ⟨k, hk, -⟩ := h
    exact hne k hk

/-- A range admits each number that lies between its bounds. It admits nothing
but numbers, and those lie between the bounds if they are integers or neither
bound is beyond 2^53. -/
theorem numericRange_admits (min max : UInt64) (value : Option FieldValue) :
    (∀ k, value = some (.number k) → (min.toNat : ℚ) ≤ k.value → k.value ≤ max.toNat →
      (Constraint.numericRange min max).admits value = true) ∧
    ((Constraint.numericRange min max).admits value = true → ∃ k, value = some (.number k) ∧
      (k.int?.isSome = true ∨ min.toNat ≤ 2 ^ 53 ∧ max.toNat ≤ 2 ^ 53 →
        (min.toNat : ℚ) ≤ k.value ∧ k.value ≤ max.toNat)) := by
  constructor
  · intro k hk hmin hmax
    exact admits_eq_true.mpr ⟨k, hk, inRange_of_between hmin hmax⟩
  · intro h
    obtain ⟨k, hk, hr⟩ := admits_eq_true.mp h
    exact ⟨k, hk, between_of_inRange hr⟩

theorem numericRange_admits_limits :
    (Constraint.numericRange 9007199254740993 18446744073709551615).admits
      (some (.number (.real ⟨false, 0x43EFFFFFFFFFFFFF⟩))) = true ∧
    ∃ k, some (FieldValue.number (.real ⟨true, 0⟩)) = some (.number k) ∧
      ((0 : UInt64).toNat : ℚ) ≤ k.value ∧ k.value ≤ (9007199254740992 : UInt64).toNat := by
  constructor
  · exact (numericRange_admits _ _ _).1 _ rfl (le_value_real.mpr (by decide +kernel))
      (value_real_le.mpr (by decide +kernel))
  · obtain ⟨k, hk, hbetween⟩ := (numericRange_admits 0 9007199254740992
      (some (.number (.real ⟨true, 0⟩)))).2 (by decide +kernel)
    exact ⟨k, hk, hbetween (.inr ⟨by decide, by decide⟩)⟩

/-! ## Bounds the wrong way round -/

/-- A floating point number that both bounds round to. -/
def MeetsBoth (min max : UInt64) (value : Option FieldValue) : Prop :=
  ∃ x : Binary64, value = some (.number (.real x)) ∧
    x.signedUnits = unitsAt (rankOfNat min.toNat) ∧ x.signedUnits = unitsAt (rankOfNat max.toNat)

theorem inRange_inverted {k : Number} {min max : UInt64} (h : max < min) :
    k.inRange min max = true ↔ MeetsBoth min max (some (.number k)) := by
  have hlt : max.toNat < min.toNat := UInt64.lt_iff_toNat_lt.mp h
  cases hk : k.int? with
  | some n =>
    rw [inRange_int hk]
    constructor
    · intro hn
      omega
    · intro hx
      obtain ⟨x, he, -, -⟩ := hx
      cases he
      cases hk
  | none =>
    cases k with
    | natural v => cases hk
    | negative m => cases hk
    | real x =>
      have hmono := Binary64.unitsAt_le_iff.mpr (Binary64.rankOfNat_mono (Nat.le_of_lt hlt))
      rw [inRange_real]
      constructor
      · intro hx
        exact ⟨x, rfl, by omega, by omega⟩
      · intro hx
        obtain ⟨y, he, hmin, hmax⟩ := hx
        cases he
        exact ⟨hmin ▸ Int.le_refl _, hmax ▸ Int.le_refl _⟩

theorem admits_inverted {min max : UInt64} (h : max < min) (value : Option FieldValue) :
    (Constraint.numericRange min max).admits value = true ↔ MeetsBoth min max value := by
  rw [admits_eq_true]
  constructor
  · intro hv
    obtain ⟨k, rfl, hk⟩ := hv
    exact (inRange_inverted h).mp hk
  · intro hv
    obtain ⟨x, rfl, -, -⟩ := id hv
    exact ⟨.real x, rfl, (inRange_inverted h).mpr hv⟩

/-- Distinct bounds round to one number only beyond 2^53. -/
theorem MeetsBoth.limit_le {min max : UInt64} {value : Option FieldValue} (h : max < min)
    (hm : MeetsBoth min max value) : 2 ^ 53 ≤ max.toNat := by
  obtain ⟨x, -, hmin, hmax⟩ := hm
  rcases Nat.lt_or_ge max.toNat (2 ^ 53) with hlow | hhigh
  · have := Binary64.rankOfNat_lt (UInt64.lt_iff_toNat_lt.mp h) hlow
    omega
  · exact hhigh

theorem admits_of_accepts {f : Filters} {r : Record} {field : String} {c : Constraint}
    (hf : (field, c) ∈ f.entries) (h : f.accepts r = true) : c.admits (r.get? field) = true :=
  List.all_eq_true.mp h _ hf

/-- A range with its bounds the wrong way round admits a floating point number
that both bounds round to and nothing else, so filters with such a range accept
no record but one with such a number there. -/
theorem inverted_range_rejects (f : Filters) (field : String) (min max : UInt64)
    (hf : (field, .numericRange min max) ∈ f.entries) (h : max < min) :
    (∀ value, (Constraint.numericRange min max).admits value = true ↔ MeetsBoth min max value) ∧
    (∀ r : Record, ¬ MeetsBoth min max (r.get? field) → f.accepts r = false) ∧
    (∀ records : List Record, (∀ r ∈ records, ¬ MeetsBoth min max (r.get? field)) →
      f.evaluate records = []) ∧
    (∀ value, MeetsBoth min max value → 2 ^ 53 ≤ max.toNat) := by
  have hrejects : ∀ r : Record, ¬ MeetsBoth min max (r.get? field) → f.accepts r = false := by
    intro r hr
    rw [Bool.eq_false_iff]
    intro ha
    exact hr ((admits_inverted h _).mp (admits_of_accepts hf ha))
  refine ⟨admits_inverted h, hrejects, fun records hrs => ?_, fun _ hm => hm.limit_le h⟩
  unfold Filters.evaluate Filters.select
  rw [List.filter_eq_nil_iff]
  intro r hr
  simp [hrejects r (hrs r hr)]

theorem inverted_range_rejects_between :
    Filters.accepts (Fields.ofList [("n", .numericRange 9007199254740995 9007199254740993)])
      (Fields.ofList [("n", .number (.real ⟨false, 0x4340000000000001⟩))]) = false ∧
    Filters.evaluate (Fields.ofList [("n", .numericRange 9007199254740995 9007199254740993)])
      [Fields.ofList [("n", .number (.real ⟨false, 0x4340000000000001⟩))]] = [] := by
  have hmeets : ¬ MeetsBoth 9007199254740995 9007199254740993
      (some (.number (.real ⟨false, 0x4340000000000001⟩))) := by
    intro h
    obtain ⟨x, he, hmin, -⟩ := h
    cases he
    exact absurd hmin (by decide +kernel)
  obtain ⟨-, haccepts, hevaluate, -⟩ := inverted_range_rejects
    (Fields.ofList [("n", .numericRange 9007199254740995 9007199254740993)]) "n" 9007199254740995
    9007199254740993 (List.mem_singleton.mpr rfl) (by decide)
  exact ⟨haccepts _ hmeets, hevaluate _ (List.forall_mem_singleton.mpr hmeets)⟩

/-- The bounds are neighbours, and both round to the smaller one. -/
theorem inverted_range_accepts :
    ("n", Constraint.numericRange 9007199254740993 9007199254740992) ∈
      (Fields.ofList [("n", Constraint.numericRange 9007199254740993 9007199254740992)]).entries ∧
    (9007199254740992 : UInt64) < 9007199254740993 ∧
    Filters.accepts (Fields.ofList [("n", .numericRange 9007199254740993 9007199254740992)])
      (Fields.ofList [("n", .number (.real ⟨false, 0x4340000000000000⟩))]) = true :=
  ⟨List.mem_singleton.mpr rfl, by decide, by decide +kernel⟩

end Query

end RecordSearch
