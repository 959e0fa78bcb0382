import RecordSearch.Text.Numeral

/-!
# Reading numerals

Digits are read exactly if their value is below the limit, however many zeros
stand in front: a part of them never has more than the value of all.
-/

namespace RecordSearch.Text

theorem le_ofDigitChars : ∀ (digits : List Char) (n : Nat), n ≤ Nat.ofDigitChars 10 digits n
  | [], n => Nat.le_of_eq Nat.ofDigitChars_nil.symm
  | c :: digits, n => by
    rw [Nat.ofDigitChars_cons]
    have := le_ofDigitChars digits (10 * n + (c.toNat - '0'.toNat))
    omega

theorem digitsBelow_eq_ok {limit : Nat} {message : String} : ∀ {digits : List Char} {n m : Nat}, n < limit →
    (digitsBelow limit message n digits = .ok m ↔
      (∀ c ∈ digits, c.isDigit = true) ∧ Nat.ofDigitChars 10 digits n = m ∧ m < limit)
  | [], n, m, hn => by
    rw [digitsBelow, Nat.ofDigitChars_nil]
    constructor
    · intro h
      cases h
      exact ⟨List.forall_mem_nil _, rfl, hn⟩
    · intro h
      rw [h.2.1]
  | c :: digits, n, m, _ => by
    rw [digitsBelow, Nat.ofDigitChars_cons, List.forall_mem_cons]
    by_cases hc : c.isDigit = true
    · rw [if_pos hc]
      by_cases hlt : 10 * n + (c.toNat - 48) < limit
      · rw [if_pos hlt, digitsBelow_eq_ok hlt]
        exact ⟨fun h => ⟨⟨hc, h.1⟩, h.2⟩, fun h => ⟨h.1.2, h.2⟩⟩
      · rw [if_neg hlt]
        constructor
        · intro h
          cases h
        · intro h
          have := le_ofDigitChars digits (10 * n + (c.toNat - 48))
          exact absurd (Nat.lt_of_le_of_lt (h.2.1 ▸ this) h.2.2) hlt
    · rw [if_neg hc]
      constructor
      · intro h
        cases h
      · intro h
        exact absurd h.1.1 hc

theorem natural64_of_digits {digits : List Char} {n : Nat} (hne : digits ≠ [])
    (hd : ∀ c ∈ digits, c.isDigit = true) :
    natural64 (String.ofList digits) = .ok n ↔ Nat.ofDigitChars 10 digits 0 = n ∧ n < UInt64.size := by
  have hplus : '+' ∉ digits := by
    intro h
    exact absurd (hd _ h) (by decide)
  unfold natural64
  rw [String.toList_ofList]
  split
  · exact absurd rfl hne
  · exact absurd (List.mem_cons_self ..) hplus
  · exact absurd (List.mem_cons_self ..) hplus
  · rw [digitsBelow_eq_ok (by decide)]
    exact ⟨fun h => h.2, fun h => ⟨hd, h⟩⟩

end RecordSearch.Text
