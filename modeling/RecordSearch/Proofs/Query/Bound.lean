import RecordSearch.Proofs.Text.Numerals
import RecordSearch.Query.Fragment

/-!
# Range bounds

A bound is the value of its digits, but at most 2^64 - 1, at whatever digit the
value passes that limit.
-/

namespace RecordSearch.Query

def decimal (digits : List Char) : Nat := Nat.ofDigitChars 10 digits 0

/-- A number as a bound: the largest one stands for all beyond it. -/
def capped (n : Nat) : UInt64 := UInt64.ofNat (min n 18446744073709551615)

theorem bound_eq {digits : List Char} (hne : digits ≠ []) (hd : ∀ c ∈ digits, c.isDigit = true) :
    bound digits = capped (decimal digits) := by
  have hread : ∀ n, Text.natural64 (String.ofList digits) = .ok n ↔ decimal digits = n ∧ n < UInt64.size :=
    fun n => Text.natural64_of_digits hne hd
  unfold bound
  split
  · rename_i n hn
    obtain ⟨hvalue, hlt⟩ := (hread n).mp hn
    rw [capped, hvalue, Nat.min_eq_left (Nat.le_of_lt_succ hlt)]
  · rename_i e he
    have hge : UInt64.size ≤ decimal digits := by
      refine Nat.le_of_not_lt fun hlt => ?_
      rw [(hread _).mpr ⟨rfl, hlt⟩] at he
      cases he
    rw [capped, Nat.min_eq_right (Nat.le_of_succ_le hge)]
    rfl

theorem capped_toNat (n : UInt64) : capped n.toNat = n := by
  have : n.toNat ≤ 18446744073709551615 := Nat.le_of_lt_succ n.toNat_lt
  rw [capped, Nat.min_eq_left this, UInt64.ofNat_toNat]

theorem toNat_capped (n : Nat) : (capped n).toNat = min n largest := by
  have : min n largest < UInt64.size := Nat.lt_of_le_of_lt (Nat.min_le_right ..) (by decide)
  exact UInt64.toNat_ofNat_of_lt this

theorem decimal_zeros (k : Nat) (digits : List Char) :
    decimal (List.replicate k '0' ++ digits) = decimal digits := by
  induction k with
  | zero => rfl
  | succ k ih =>
    rw [List.replicate_succ, List.cons_append, decimal, Nat.ofDigitChars_cons]
    exact ih

/-! ## The main statement -/

/-- Digits of any number are read exactly if 64 bits hold their value, and as the largest bound
if they do not, so zeros in front never matter and a larger value never gives a smaller bound. -/
theorem bound_saturates (digits : List Char) (hne : digits ≠ []) (hd : ∀ c ∈ digits, c.isDigit = true) :
    (bound digits).toNat = min (decimal digits) (UInt64.size - 1) ∧
    (decimal digits < UInt64.size → (bound digits).toNat = decimal digits) ∧
    (∀ k, bound (List.replicate k '0' ++ digits) = bound digits) ∧
    ∀ more, more ≠ [] → (∀ c ∈ more, c.isDigit = true) → decimal digits ≤ decimal more →
      bound digits ≤ bound more := by
  have hvalue : (bound digits).toNat = min (decimal digits) (UInt64.size - 1) := by
    rw [bound_eq hne hd, toNat_capped]
    rfl
  refine ⟨hvalue, ?_, ?_, ?_⟩
  · intro hlt
    rw [hvalue, Nat.min_eq_left (Nat.le_sub_one_of_lt hlt)]
  · intro k
    have hzeros : ∀ c ∈ List.replicate k '0' ++ digits, c.isDigit = true := by
      intro c hc
      rcases List.mem_append.mp hc with hc | hc
      · rw [List.eq_of_mem_replicate hc]
        rfl
      · exact hd c hc
    have hne' : List.replicate k '0' ++ digits ≠ [] := List.append_ne_nil_of_right_ne_nil _ hne
    rw [bound_eq hne' hzeros, bound_eq hne hd, decimal_zeros]
  · intro more hmore hmd hle
    rw [UInt64.le_iff_toNat_le, hvalue, bound_eq hmore hmd, toNat_capped]
    exact Nat.le_min.mpr ⟨Nat.le_trans (Nat.min_le_left ..) hle, Nat.min_le_right ..⟩

/-- The largest value that is read exactly, and the least that is not. -/
theorem bound_saturates_limit :
    (bound "0018446744073709551615".toList).toNat = decimal "0018446744073709551615".toList ∧
    (bound "18446744073709551616".toList).toNat = UInt64.size - 1 ∧
    bound "0018446744073709551615".toList ≤ bound "18446744073709551616".toList := by
  have hlast : "0018446744073709551615".toList.all Char.isDigit = true := by decide
  have hnext : "18446744073709551616".toList.all Char.isDigit = true := by decide
  obtain ⟨-, hexact, -, hmono⟩ := bound_saturates "0018446744073709551615".toList (by decide)
    (List.all_eq_true.mp hlast)
  obtain ⟨hvalue, -⟩ := bound_saturates "18446744073709551616".toList (by decide)
    (List.all_eq_true.mp hnext)
  refine ⟨hexact (by decide), hvalue.trans (by decide), ?_⟩
  exact hmono _ (by decide) (List.all_eq_true.mp hnext) (by decide)

end RecordSearch.Query
