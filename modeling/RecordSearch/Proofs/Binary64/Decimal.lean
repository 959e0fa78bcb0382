import RecordSearch.Proofs.Binary64.Shortest

/-!
# Decimals

A decimal by its parts. `chars_decimal`: the text of a floating point number is
a decimal, in whichever notation, and its digits read back as the number.
-/

namespace RecordSearch

/-! ## Digits -/

/-- Decimal digits and nothing else. -/
def AllDigits (ds : List Char) : Prop := ∀ c ∈ ds, c.isDigit = true

theorem AllDigits.append {ds es : List Char} (hd : AllDigits ds) (he : AllDigits es) :
    AllDigits (ds ++ es) := fun c hc => (List.mem_append.mp hc).elim (hd c) (he c)

theorem allDigits_zeros (n : Nat) : AllDigits (List.replicate n '0') := fun c hc => by
  rw [(List.mem_replicate.mp hc).2]
  rfl

theorem allDigits_toDigits (n : Nat) : AllDigits (Nat.toDigits 10 n) := fun _ hc =>
  Nat.isDigit_of_mem_toDigits (by decide) (by decide) hc

theorem digitChar_ne_zero : ∀ n < 10, n ≠ 0 → Nat.digitChar n ≠ '0' := by decide

/-- Only zero is written with a zero in front. -/
theorem head?_toDigits (n : Nat) (h : n ≠ 0) : (Nat.toDigits 10 n).head? ≠ some '0' := by
  induction n using Nat.strongRecOn with
  | ind n ih =>
    rcases Nat.lt_or_ge n 10 with hn | hn
    · rw [Nat.toDigits_of_lt_base hn]
      exact fun e => digitChar_ne_zero n hn h (Option.some.inj e)
    · have hdiv := ih (n / 10) (by omega) (by omega)
      rw [Nat.toDigits_of_base_le (by decide) hn, List.head?_append]
      cases hd : (Nat.toDigits 10 (n / 10)).head? with
      | none => exact absurd (List.head?_eq_none_iff.mp hd) Nat.toDigits_ne_nil
      | some c => exact fun e => hdiv (hd.trans e)

/-! ## Parts -/

/-- The parts of a decimal: its digits before and after the point, and a sign and
digits for the exponent. -/
structure Decimal where
  whole : List Char
  fraction : List Char
  exponent : Option (Bool × List Char)

namespace Decimal

def pointed : List Char → List Char
  | [] => []
  | c :: ds => '.' :: c :: ds

def powered : Option (Bool × List Char) → List Char
  | none => []
  | some (negative, ds) => 'e' :: (if negative then '-' else '+') :: ds

def chars (d : Decimal) : List Char := d.whole ++ (pointed d.fraction ++ powered d.exponent)

/-- Digits where digits belong, and no zero before others. -/
structure Proper (d : Decimal) : Prop where
  whole : AllDigits d.whole
  nonempty : d.whole ≠ []
  leading : d.whole.head? = some '0' → d.whole = ['0']
  fraction : AllDigits d.fraction
  exponent : ∀ x ∈ d.exponent, AllDigits x.2 ∧ x.2 ≠ []

def IsReal (d : Decimal) : Prop := d.fraction ≠ [] ∨ d.exponent.isSome = true

def digits (d : Decimal) : Nat := Nat.ofDigitChars 10 (d.whole ++ d.fraction) 0

def signed (x : Bool × List Char) : Int :=
  if x.1 then -(Nat.ofDigitChars 10 x.2 0 : Int) else Nat.ofDigitChars 10 x.2 0

def power (d : Decimal) : Int := (d.exponent.map signed).getD 0 - d.fraction.length

theorem chars_pointed {c : Char} {whole ds : List Char} :
    (Decimal.mk whole (c :: ds) none).chars = whole ++ '.' :: c :: ds := by
  rw [chars, pointed, powered, List.append_nil]

end Decimal

/-! ## Notations -/

namespace Binary64

open Decimal

def LaysOut (cs digits : List Char) (e : Int) : Prop :=
  ∃ d : Decimal, cs = d.chars ∧ d.Proper ∧ d.IsReal ∧
    rankOfDecimal d.digits d.power = rankOfDecimal (Nat.ofDigitChars 10 digits 0) e

variable {digits : List Char} {e : Int}

theorem laysOut_whole (hne : digits ≠ []) (hd : AllDigits digits) (hh : digits.head? ≠ some '0')
    (h0 : 0 ≤ e) (h15 : e ≤ 15) :
    LaysOut (digits ++ List.replicate e.toNat '0' ++ ['.', '0']) digits e := by
  have hvalue : Nat.ofDigitChars 10 (digits ++ List.replicate e.toNat '0' ++ ['0']) 0 =
      Nat.ofDigitChars 10 digits 0 * 10 ^ (e.toNat + 1) := by
    rw [Nat.ofDigitChars_append, Nat.ofDigitChars_append, Nat.ofDigitChars_replicate_zero,
      Nat.ofDigitChars_cons, Nat.ofDigitChars_nil, Nat.pow_succ]
    rw [← Nat.mul_assoc, Nat.mul_comm, Nat.mul_comm 10]
    rfl
  refine ⟨⟨digits ++ List.replicate e.toNat '0', ['0'], none⟩, chars_pointed.symm,
    ⟨hd.append (allDigits_zeros _), by simp [hne], fun h => ?_, allDigits_zeros 1, by simp⟩,
    .inl (by simp), ?_⟩
  · obtain ⟨c, cs, rfl⟩ := List.exists_cons_of_ne_nil hne
    exact absurd h hh
  · rw [Decimal.digits, hvalue]
    exact rankOfDecimal_point h0 h15

theorem laysOut_inside (hd : AllDigits digits) (hh : digits.head? ≠ some '0') {n : Nat}
    (hn : n + 1 < digits.length) (he : e = (n + 1 : Nat) - digits.length) :
    LaysOut (digits.take (n + 1) ++ '.' :: digits.drop (n + 1)) digits e := by
  have hlen : (digits.drop (n + 1)).length = digits.length - (n + 1) := List.length_drop
  obtain ⟨c, ds, hdrop⟩ := List.exists_cons_of_length_pos (l := digits.drop (n + 1)) (by omega)
  have htake : digits.take (n + 1) ≠ [] := fun h => by
    have := congrArg List.length h
    rw [List.length_take, List.length_nil] at this
    omega
  refine ⟨⟨digits.take (n + 1), digits.drop (n + 1), none⟩, ?_,
    ⟨fun c hc => hd c (List.mem_of_mem_take hc), htake, fun h => ?_,
      fun c hc => hd c (List.mem_of_mem_drop hc), by simp⟩, .inl (by simp [hdrop]), ?_⟩
  · rw [hdrop, chars_pointed]
  · rw [List.head?_take, if_neg (by omega)] at h
    exact absurd h hh
  · rw [Decimal.digits, List.take_append_drop]
    congr 1
    show 0 - ((digits.drop (n + 1)).length : Int) = e
    omega

theorem laysOut_below (hne : digits ≠ []) (hd : AllDigits digits) {n : Nat}
    (he : e = -(n : Int) - digits.length) :
    LaysOut (['0', '.'] ++ List.replicate n '0' ++ digits) digits e := by
  have hvalue : Nat.ofDigitChars 10 (['0'] ++ (List.replicate n '0' ++ digits)) 0 =
      Nat.ofDigitChars 10 digits 0 := by
    rw [Nat.ofDigitChars_append, Nat.ofDigitChars_append, Nat.ofDigitChars_replicate_zero]
    rfl
  obtain ⟨c, ds, hc⟩ := List.exists_cons_of_ne_nil (l := List.replicate n '0' ++ digits)
    (by simp [hne])
  refine ⟨⟨['0'], List.replicate n '0' ++ digits, none⟩, ?_,
    ⟨allDigits_zeros 1, by simp, fun _ => rfl, (allDigits_zeros n).append hd, by simp⟩,
    .inl (by simp [hne]), ?_⟩
  · rw [List.append_assoc, hc, chars_pointed]
    rfl
  · rw [Decimal.digits, hvalue]
    congr 1
    show 0 - ((List.replicate n '0' ++ digits).length : Int) = e
    rw [List.length_append, List.length_replicate]
    omega

theorem signed_lead (lead : Int) :
    signed (decide (lead < 0), digitChars lead.natAbs) = lead := by
  simp only [signed, digitChars, Nat.ofDigitChars_ten_toDigits, decide_eq_true_eq]
  omega

theorem laysOut_scientific (hne : digits ≠ []) (hd : AllDigits digits)
    (hh : digits.head? ≠ some '0') {lead : Int} (hl : lead = e + digits.length - 1) :
    LaysOut (digits.take 1 ++ (if (digits.drop 1).isEmpty then [] else '.' :: digits.drop 1) ++
      'e' :: (if 0 ≤ lead then '+' else '-') :: digitChars lead.natAbs) digits e := by
  obtain ⟨c, ds, rfl⟩ := List.exists_cons_of_ne_nil hne
  have hsign : (if 0 ≤ lead then '+' else '-') = if decide (lead < 0) = true then '-' else '+' := by
    by_cases h : 0 ≤ lead
    · rw [if_pos h, if_neg (by simpa using h)]
    · rw [if_neg h, if_pos (by simpa using h)]
  have hpoint : (if ds.isEmpty then [] else '.' :: ds) = pointed ds := by cases ds <;> rfl
  refine ⟨⟨[c], ds, some (decide (lead < 0), digitChars lead.natAbs)⟩, ?_,
    ⟨fun d hc => hd d (List.mem_of_mem_take (i := 1) hc), by simp, fun h => absurd h hh,
      fun d hc => hd d (List.mem_cons_of_mem _ hc), fun x hx => ?_⟩, .inr rfl, ?_⟩
  · rw [hsign]
    simp only [List.take_succ_cons, List.take_zero, List.drop_succ_cons, List.drop_zero, hpoint,
      List.append_assoc]
    rfl
  · cases hx
    exact ⟨allDigits_toDigits _, Nat.toDigits_ne_nil⟩
  · congr 1
    show signed (decide (lead < 0), digitChars lead.natAbs) - (ds.length : Int) = e
    rw [signed_lead, hl, List.length_cons]
    omega

theorem laysOut_layOut (hne : digits ≠ []) (hd : AllDigits digits) (hh : digits.head? ≠ some '0') :
    LaysOut (layOut digits e) digits e := by
  have hpos : 0 < digits.length := List.length_pos_iff.mpr hne
  simp only [layOut]
  generalize hl : e + digits.length - 1 = lead
  split
  · rename_i hrange
    split
    · rename_i h0
      exact laysOut_whole hne hd hh h0 (by omega)
    · rename_i h0
      split
      · exact laysOut_inside hd hh (by omega) (by omega)
      · exact laysOut_below hne hd (by omega)
  · exact laysOut_scientific hne hd hh hl.symm

/-! ## Whole texts -/

theorem laysOut_shortest {r : Nat} (h : r ≠ 0) :
    LaysOut (layOut (digitChars (shortest r).1) (shortest r).2) (digitChars (shortest r).1)
      (shortest r).2 :=
  laysOut_layOut Nat.toDigits_ne_nil (allDigits_toDigits _) (head?_toDigits _ (shortest_ne_zero h))

theorem chars_magnitude {x : Binary64} (h : x.rank.val ≠ 0) {cs : List Char}
    (hc : layOut (digitChars (shortest x.rank).1) (shortest x.rank).2 = cs) :
    x.chars = if x.negative then '-' :: cs else cs := by
  subst cs
  cases hs : shortest x.rank with
  | mk d e => rw [chars, if_neg h, hs]

theorem ofRank?_rank (x : Binary64) : ofRank? x.negative x.rank = some x := dif_pos x.rank.isLt

/-- The text of a number is a decimal, after a minus if the number is negative,
and reads back as the number. -/
theorem chars_decimal (x : Binary64) : ∃ d : Decimal, d.Proper ∧ d.IsReal ∧
    x.chars = (if x.negative then '-' :: d.chars else d.chars) ∧
    ofDecimal? x.negative d.digits d.power = some x := by
  by_cases hx : x.rank.val = 0
  · refine ⟨⟨['0'], ['0'], none⟩, ⟨allDigits_zeros 1, by simp, fun _ => rfl, allDigits_zeros 1, by simp⟩,
      .inl (by simp), by simp [chars, hx, Decimal.chars, pointed, powered], ?_⟩
    have hzero : (Decimal.mk ['0'] ['0'] none).digits = 0 := rfl
    rw [ofDecimal?, hzero, rankOfDecimal_zero, ← hx, ofRank?_rank]
  · obtain ⟨d, hchars, hproper, hreal, hrank⟩ := laysOut_shortest hx
    refine ⟨d, hproper, hreal, chars_magnitude hx hchars, ?_⟩
    rw [ofDecimal?, hrank, digitChars, Nat.ofDigitChars_ten_toDigits, rankOfDecimal_shortest hx,
      ofRank?_rank]

end Binary64

end RecordSearch
