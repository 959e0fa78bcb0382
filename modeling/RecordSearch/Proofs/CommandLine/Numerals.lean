import RecordSearch.CommandLine
import RecordSearch.Proofs.Json.Outcomes
import RecordSearch.Proofs.Query.Bound

/-!
# Numbers as settings

A number is written as a row of digits, with leading zeros or a sign before it.
A port is any such number in its range, and a limit is one without a minus sign
that 64 bits can hold.
-/

namespace RecordSearch.CommandLine

open Text (digitsBelow tooLarge natural64 digitsBelow_eq_ok)

/-! ## Texts of numbers -/

structure Numeral (row : List Char) (n : Nat) : Prop where
  nonempty : row ≠ []
  digits : ∀ c ∈ row, c.isDigit = true
  value : Query.decimal row = n

inductive NaturalText : List Char → Nat → Prop
  | plain {digits : List Char} {n : Nat} : Numeral digits n → NaturalText digits n
  | plus {digits : List Char} {n : Nat} : Numeral digits n → NaturalText ('+' :: digits) n

inductive IntegerText : List Char → Int → Prop
  | natural {text : List Char} {n : Nat} : NaturalText text n → IntegerText text n
  | minus {digits : List Char} {n : Nat} : Numeral digits n → IntegerText ('-' :: digits) (-n)

theorem Numeral.head {c : Char} {digits : List Char} {n : Nat} (h : Numeral (c :: digits) n) :
    c.isDigit = true :=
  h.digits c (List.mem_cons_self ..)

theorem Numeral.any_digit {row : List Char} {n : Nat} (h : Numeral row n) : row.any Char.isDigit = true := by
  obtain ⟨c, hc⟩ := List.exists_mem_of_ne_nil row h.nonempty
  exact List.any_eq_true.mpr ⟨c, hc, h.digits c hc⟩

theorem NaturalText.any_digit {text : List Char} {n : Nat} (h : NaturalText text n) :
    text.any Char.isDigit = true := by
  cases h with
  | plain h => exact h.any_digit
  | plus h => rw [List.any_cons, h.any_digit, Bool.or_true]

theorem IntegerText.any_digit {text : List Char} {i : Int} (h : IntegerText text i) :
    text.any Char.isDigit = true := by
  cases h with
  | natural h => exact h.any_digit
  | minus h => rw [List.any_cons, h.any_digit, Bool.or_true]

theorem naturalText_plus {digits : List Char} {n : Nat} :
    NaturalText ('+' :: digits) n ↔ Numeral digits n := by
  constructor
  · intro h
    cases h with
    | plain h => exact absurd h.head (by decide)
    | plus h => exact h
  · exact .plus

theorem naturalText_unsigned {text : List Char} {n : Nat} (h : ∀ rest, text ≠ '+' :: rest) :
    NaturalText text n ↔ Numeral text n := by
  constructor
  · intro ht
    cases ht with
    | plain ht => exact ht
    | plus => exact absurd rfl (h _)
  · exact .plain

theorem integerText_minus {digits : List Char} {i : Int} :
    IntegerText ('-' :: digits) i ↔ ∃ n, Numeral digits n ∧ -(n : Int) = i := by
  constructor
  · intro h
    cases h with
    | natural h =>
      cases h with
      | plain h => exact absurd h.head (by decide)
    | minus h => exact ⟨_, h, rfl⟩
  · intro h
    obtain ⟨n, h, rfl⟩ := h
    exact .minus h

theorem integerText_natural {text : List Char} {i : Int} (h : ∀ rest, text ≠ '-' :: rest) :
    IntegerText text i ↔ ∃ n, NaturalText text n ∧ (n : Int) = i := by
  constructor
  · intro ht
    cases ht with
    | natural ht => exact ⟨_, ht, rfl⟩
    | minus => exact absurd rfl (h _)
  · intro ht
    obtain ⟨n, ht, rfl⟩ := ht
    exact .natural ht

/-! ## Digits below a limit -/

theorem digitsBelow_zero_eq_ok {limit n : Nat} {message : String} {digits : List Char} (hlimit : 0 < limit)
    (hne : digits ≠ []) : digitsBelow limit message 0 digits = .ok n ↔ Numeral digits n ∧ n < limit := by
  rw [digitsBelow_eq_ok hlimit]
  exact ⟨fun h => ⟨⟨hne, h.1, h.2.1⟩, h.2.2⟩, fun h => ⟨h.1.digits, h.1.value, h.2⟩⟩

/-! ## Limits and ports -/

theorem natural64_eq_ok {value : String} {n : Nat} :
    natural64 value = .ok n ↔ NaturalText value.toList n ∧ n < UInt64.size := by
  unfold natural64
  split
  · rename_i hv
    rw [hv]
    exact ⟨(by cases ·), fun h => absurd h.1.any_digit (by decide)⟩
  · rename_i hv
    rw [hv]
    exact ⟨(by cases ·), fun h => absurd h.1.any_digit (by decide)⟩
  · rename_i digits hdigits hv
    rw [hv, naturalText_plus]
    exact digitsBelow_zero_eq_ok (by decide) hdigits
  · rename_i hnil _ hplus
    rw [naturalText_unsigned hplus]
    exact digitsBelow_zero_eq_ok (by decide) hnil

/-- The whole numbers that 64 bits with sign can hold. -/
def IsSigned64 (i : Int) : Prop := -(signed64 : Int) ≤ i ∧ i < signed64

theorem map_ofNat_eq_ok {digits text : List Char} {i : Int} (hne : digits ≠ [])
    (hminus : ∀ rest, text ≠ '-' :: rest) (htext : ∀ n, NaturalText text n ↔ Numeral digits n) :
    (digitsBelow signed64 tooLarge 0 digits).map Int.ofNat = .ok i ↔ IntegerText text i ∧ IsSigned64 i := by
  simp only [Json.map_eq_ok_iff, digitsBelow_zero_eq_ok (show 0 < signed64 by decide) hne,
    integerText_natural hminus, htext, Int.ofNat_eq_natCast]
  constructor
  · intro h
    obtain ⟨n, ⟨hn, hlt⟩, rfl⟩ := h
    exact ⟨⟨n, hn, rfl⟩, by omega, Int.ofNat_lt.mpr hlt⟩
  · intro h
    obtain ⟨⟨n, hn, rfl⟩, -, hlt⟩ := h
    exact ⟨n, ⟨hn, Int.ofNat_lt.mp hlt⟩, rfl⟩

theorem integer64_eq_ok {value : String} {i : Int} :
    integer64 value = .ok i ↔ IntegerText value.toList i ∧ IsSigned64 i := by
  unfold integer64
  split
  · rename_i hv
    rw [hv]
    exact ⟨(by cases ·), fun h => absurd h.1.any_digit (by decide)⟩
  · rename_i hv
    rw [hv]
    exact ⟨(by cases ·), fun h => absurd h.1.any_digit (by decide)⟩
  · rename_i hv
    rw [hv]
    exact ⟨(by cases ·), fun h => absurd h.1.any_digit (by decide)⟩
  · rename_i digits hdigits hv
    rw [hv, integerText_minus]
    simp only [Json.map_eq_ok_iff, Json.bind_eq_ok, pure, Except.pure, Except.ok.injEq,
      digitsBelow_zero_eq_ok (show 0 < signed64 + 1 by decide) hdigits]
    constructor
    · intro h
      obtain ⟨_, ⟨n, ⟨hn, hlt⟩, rfl⟩, rfl⟩ := h
      have hpos : 0 < signed64 := by decide
      exact ⟨⟨n, hn, rfl⟩, by omega, by omega⟩
    · intro h
      obtain ⟨⟨n, hn, rfl⟩, hlow, -⟩ := h
      exact ⟨n, ⟨n, ⟨hn, by omega⟩, rfl⟩, rfl⟩
  · rename_i digits hdigits hv
    rw [hv]
    exact map_ofNat_eq_ok hdigits (by simp) fun n => naturalText_plus
  · rename_i hnil _ _ hminus hplus
    exact map_ofNat_eq_ok hnil hminus fun n => naturalText_unsigned hplus

theorem isSigned64_port (p : UInt16) : IsSigned64 p.toNat := by
  have hp := p.toNat_lt
  have hlimit : 65536 ≤ signed64 := by decide
  constructor <;> omega

theorem portNumber_eq_ok {value : String} {p : UInt16} :
    portNumber value = .ok p ↔ IntegerText value.toList p.toNat := by
  unfold portNumber
  constructor
  · intro h
    split at h
    · cases h
    · rename_i i hi
      split at h
      · rename_i hrange
        cases h
        have hsize : i.toNat < UInt16.size := Nat.lt_of_le_of_lt (by omega) (show 65535 < UInt16.size by decide)
        have hback : i.toNat.toUInt16.toNat = i.toNat := UInt16.toNat_ofNat_of_lt' hsize
        rw [hback, Int.toNat_of_nonneg hrange.1]
        exact (integer64_eq_ok.mp hi).1
      · cases h
  · intro h
    have hp := p.toNat_lt
    rw [integer64_eq_ok.mpr ⟨h, isSigned64_port p⟩]
    simp only
    rw [if_pos (by omega), Int.toNat_natCast]
    exact congrArg Except.ok UInt16.ofNat_toNat

end RecordSearch.CommandLine
