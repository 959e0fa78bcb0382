import RecordSearch.Proofs.Query.Rendering

/-!
# Ranges of integers

A range asked for in a query admits an integer if it lies between the values of
the digits, however many there are (`accepts_range_query`). The largest bound
stands for every bound beyond it, so the largest integer is admitted from a
lower bound that is beyond it.
-/

namespace RecordSearch

/-- The integer that a number is stored as. -/
def Number.int? : Number → Option Int
  | .natural n => some n.toNat
  | .negative m => some (Int.negSucc m)
  | .real _ => none

namespace Query

open Text (Stops stops_nil)

/-! ## Integers and bounds -/

theorem int?_le_largest {k : Number} {n : Int} (hk : k.int? = some n) : n ≤ largest := by
  cases k with
  | natural v =>
    have hv := v.toNat_lt
    simp only [Number.int?, Option.some.injEq] at hk
    simp only [largest, UInt64.size]
    omega
  | negative m =>
    have hm := Int.negSucc_lt_zero m
    simp only [Number.int?, Option.some.injEq] at hk
    omega
  | real x => cases hk

theorem inRange_int {k : Number} {n : Int} (hk : k.int? = some n) (min max : UInt64) :
    k.inRange min max = true ↔ (min.toNat : Int) ≤ n ∧ n ≤ max.toNat := by
  cases k with
  | natural v =>
    simp only [Number.int?, Option.some.injEq] at hk
    subst hk
    simp [Number.inRange, UInt64.le_iff_toNat_le]
  | negative m =>
    have hm := Int.negSucc_lt_zero m
    simp only [Number.int?, Option.some.injEq] at hk
    simp only [Number.inRange, Bool.false_eq_true, false_iff]
    omega
  | real x => cases hk

/-- A bound beyond the largest one matters for the largest integer alone. -/
theorem inRange_capped {k : Number} {n : Int} (hk : k.int? = some n) (low high : Nat) :
    k.inRange (capped low) (capped high) = true ↔
      ((low : Int) ≤ n ∧ n ≤ high) ∨ (n = largest ∧ largest < low ∧ largest ≤ high) := by
  have hn := int?_le_largest hk
  rw [inRange_int hk, toNat_capped, toNat_capped]
  omega

/-! ## The filter of a range -/

theorem parse_range {field low high : String} (hf : field ≠ "")
    (hfc : ∀ c ∈ field.toList, inName c = true) (hl : low ≠ "")
    (hlc : ∀ c ∈ low.toList, inNumber c = true) (hh : high ≠ "")
    (hhc : ∀ c ∈ high.toList, inNumber c = true) :
    parse (field ++ ":" ++ low ++ ".." ++ high) = Fields.ofList
      [(field, .numericRange (capped (decimal low.toList)) (capped (decimal high.toList)))] := by
  have hne : ∀ {s : String}, s ≠ "" → s.toList ≠ [] := fun h e => h (String.toList_eq_nil_iff.mp e)
  obtain ⟨hfollows, hleast⟩ := follows_digits (hne hl) hlc (hne hh) hhc (stops_nil : Stops inNumber [])
  have hs : (field ++ ":" ++ low ++ ".." ++ high).toList =
      field.toList ++ ':' :: (low.toList ++ '.' :: '.' :: (high.toList ++ [])) := by simp
  rw [parse_eq_ofList, hs, found_follows (hne hf) hfc hfollows hleast, found_nil, String.ofList_toList]

theorem accepts_single (field : String) (c : Constraint) (r : Record) :
    Filters.accepts (Fields.ofList [(field, c)]) r = c.admits (r.get? field) :=
  Bool.and_true _

/-! ## The main statement -/

/-- Digits of any length are compared by their value, but a lower bound beyond
the largest integer still admits that integer. -/
theorem accepts_range_query (field low high : String) (hf : field ≠ "")
    (hfc : ∀ c ∈ field.toList, inName c = true) (hl : low ≠ "")
    (hlc : ∀ c ∈ low.toList, inNumber c = true) (hh : high ≠ "")
    (hhc : ∀ c ∈ high.toList, inNumber c = true) (r : Record) (k : Number) (n : Int)
    (hr : r.get? field = some (.number k)) (hk : k.int? = some n) :
    (parse (field ++ ":" ++ low ++ ".." ++ high)).accepts r = true ↔
      ((decimal low.toList : Int) ≤ n ∧ n ≤ decimal high.toList) ∨
      (n = largest ∧ largest < decimal low.toList ∧ largest ≤ decimal high.toList) := by
  rw [parse_range hf hfc hl hlc hh hhc, accepts_single, hr]
  exact inRange_capped hk _ _

theorem accepts_range_query_limit :
    (parse ("n" ++ ":" ++ "0018446744073709551615" ++ ".." ++ "99999999999999999999")).accepts
      (Fields.ofList [("n", .number (.natural 18446744073709551615))]) = true := by
  have hname : "n".toList.all inName = true := by decide
  have hlow : "0018446744073709551615".toList.all inNumber = true := by decide
  have hhigh : "99999999999999999999".toList.all inNumber = true := by decide
  have h := accepts_range_query "n" "0018446744073709551615" "99999999999999999999" (by decide)
    (List.all_eq_true.mp hname) (by decide) (List.all_eq_true.mp hlow) (by decide)
    (List.all_eq_true.mp hhigh) (Fields.ofList [("n", .number (.natural 18446744073709551615))])
    (.natural 18446744073709551615) 18446744073709551615 rfl rfl
  rw [h]
  decide +kernel

/-- The largest integer is below the only integer that is asked for. -/
theorem range_beyond_largest :
    (parse ("n" ++ ":" ++ "18446744073709551616" ++ ".." ++ "18446744073709551616")).accepts
      (Fields.ofList [("n", .number (.natural 18446744073709551615))]) = true ∧
    (Number.natural 18446744073709551615).int? = some 18446744073709551615 ∧
    ¬ ((decimal "18446744073709551616".toList : Int) ≤ 18446744073709551615 ∧
      (18446744073709551615 : Int) ≤ decimal "18446744073709551616".toList) := by
  have hname : "n".toList.all inName = true := by decide
  have hdigits : "18446744073709551616".toList.all inNumber = true := by decide
  refine ⟨?_, rfl, by decide +kernel⟩
  rw [parse_range (by decide) (List.all_eq_true.mp hname) (by decide) (List.all_eq_true.mp hdigits)
    (by decide) (List.all_eq_true.mp hdigits)]
  decide +kernel

end Query

end RecordSearch
