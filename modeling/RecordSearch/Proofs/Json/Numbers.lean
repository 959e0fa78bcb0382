import RecordSearch.Json.Reader
import RecordSearch.Json.Writer
import RecordSearch.Proofs.Binary64.Decimal
import RecordSearch.Proofs.Text.Runs
import RecordSearch.Proofs.Text.Utf8

/-!
# Numbers written and read

What the reader makes of a decimal: `numeral_whole` for an integer that fits,
`numeral_real` for all that is written with a fraction or an exponent. A written
number is one or the other, after its sign, so it reads back as itself:
`numeral_numberChars`.
-/

namespace RecordSearch.Json

open Text (isDigit digitsValue Stops stops_nil stops_cons takeWhile_run dropWhile_run)
open Utf8 (encode encode_ascii)

/-! ## Digits as bytes -/

theorem digit_range {c : Char} (h : c.isDigit = true) : 48 ≤ c.toNat ∧ c.toNat ≤ 57 := by
  simp only [Char.isDigit, Bool.and_eq_true, decide_eq_true_eq] at h
  exact h

theorem encode_digits {ds : List Char} (h : AllDigits ds) :
    encode ds = ds.map fun c => UInt8.ofNat c.toNat :=
  encode_ascii fun c hc => by have := digit_range (h c hc); omega

theorem toNat_digit {c : Char} (h : c.isDigit = true) : (UInt8.ofNat c.toNat).toNat = c.toNat := by
  have := digit_range h
  rw [UInt8.toNat_ofNat']
  omega

theorem isDigit_encode {ds : List Char} (h : AllDigits ds) : ∀ b ∈ encode ds, isDigit b = true := by
  intro b hb
  rw [encode_digits h, List.mem_map] at hb
  obtain ⟨c, hc, rfl⟩ := hb
  have hr := digit_range (h c hc)
  rw [← toNat_digit (h c hc)] at hr
  simp only [isDigit, Bool.and_eq_true, decide_eq_true_eq]
  exact hr

theorem foldl_digits : ∀ (ds : List Char) (n : Nat), AllDigits ds →
    (ds.map fun c => UInt8.ofNat c.toNat).foldl (fun n b => 10 * n + (b.toNat - 48)) n =
      Nat.ofDigitChars 10 ds n
  | [], n, _ => Nat.ofDigitChars_nil.symm
  | c :: ds, n, h => by
    rw [List.map_cons, List.foldl_cons, toNat_digit (h c (List.mem_cons_self ..)),
      foldl_digits ds _ fun d hd => h d (List.mem_cons_of_mem _ hd), Nat.ofDigitChars_cons]
    rfl

theorem digitsValue_encode {ds : List Char} (h : AllDigits ds) :
    digitsValue (encode ds) = Nat.ofDigitChars 10 ds 0 := by
  rw [encode_digits h, digitsValue, foldl_digits ds 0 h]

theorem length_encode {ds : List Char} (h : AllDigits ds) : (encode ds).length = ds.length := by
  rw [encode_digits h, List.length_map]

/-! ## The parts of a numeral -/

def inNumeral (b : UInt8) : Bool := isDigit b || b = 46 || b = 101 || b = 69

theorem stops_digit {s : Bytes} (h : Stops inNumeral s) : Stops isDigit s :=
  h.mono fun b hb => by simp [inNumeral, hb]

theorem head_encode {c : Char} {ds : List Char} (h : AllDigits (c :: ds)) :
    encode (c :: ds) = UInt8.ofNat c.toNat :: encode ds := by
  rw [encode_digits h, encode_digits fun d hd => h d (List.mem_cons_of_mem _ hd), List.map_cons]

theorem wholePart_encode {ds : List Char} (h : AllDigits ds) (hne : ds ≠ [])
    (hlead : ds.head? = some '0' → ds = ['0']) {s : Bytes} (hs : Stops isDigit s) :
    wholePart (encode ds ++ s) = .ok (encode ds, s) := by
  have htake := takeWhile_run (isDigit_encode h) hs
  have hdrop := dropWhile_run (isDigit_encode h) hs
  cases ds with
  | nil => exact absurd rfl hne
  | cons c ds =>
    have hc := h c (List.mem_cons_self ..)
    rw [head_encode h, List.cons_append] at htake hdrop ⊢
    by_cases hz : c = '0'
    · have hds := hlead (congrArg some hz)
      cases hds
      cases s with
      | nil => rfl
      | cons b t =>
        rw [Utf8.encode_nil, List.nil_append]
        unfold wholePart
        simp only [stops_cons.mp hs]
        rfl
    · have hb : UInt8.ofNat c.toNat ≠ 48 := by
        intro e
        have hn := congrArg UInt8.toNat e
        rw [toNat_digit hc] at hn
        apply hz
        rw [← Char.ofNat_toNat c, hn]
        rfl
      have hd := isDigit_encode h _ (head_encode h ▸ List.mem_cons_self ..)
      unfold wholePart
      simp only [if_neg hb, if_pos hd, htake, hdrop]

theorem fractionPart_pointed {ds : List Char} (h : AllDigits ds) {s : Bytes}
    (hs : Stops isDigit s) (hp : s.head? ≠ some 46) :
    fractionPart (encode (Decimal.pointed ds) ++ s) =
      .ok (if ds = [] then none else some (encode ds), s) := by
  cases ds with
  | nil =>
    rw [Decimal.pointed, Utf8.encode_nil, List.nil_append, if_pos rfl]
    unfold fractionPart
    split
    · exact absurd rfl hp
    · rfl
  | cons c ds =>
    have htake := takeWhile_run (isDigit_encode h) hs
    have hdrop := dropWhile_run (isDigit_encode h) hs
    have hdot : encode (Decimal.pointed (c :: ds)) = 46 :: encode (c :: ds) := rfl
    rw [hdot, List.cons_append, fractionPart, htake]
    rw [head_encode h] at *
    simp only [hdrop, reduceCtorEq, if_false]

theorem exponentPart_powered {x : Option (Bool × List Char)}
    (h : ∀ y ∈ x, AllDigits y.2 ∧ y.2 ≠ []) {s : Bytes} (hs : Stops inNumeral s) :
    exponentPart (encode (Decimal.powered x) ++ s) =
      .ok (x.map fun y => ⟨y.1, encode y.2⟩, s) := by
  cases x with
  | none =>
    rw [Decimal.powered, Utf8.encode_nil, List.nil_append]
    cases s with
    | nil => rfl
    | cons b t =>
      have hb := stops_cons.mp hs
      simp only [inNumeral, Bool.or_eq_false_iff, decide_eq_false_iff_not] at hb
      simp [exponentPart, hb]
  | some y =>
    obtain ⟨negative, ds⟩ := y
    obtain ⟨hd, hne⟩ := h _ rfl
    have htake := takeWhile_run (isDigit_encode hd) (stops_digit hs)
    have hdrop := dropWhile_run (isDigit_encode hd) (stops_digit hs)
    have hsign : encode (Decimal.powered (some (negative, ds))) =
        101 :: (if negative then 45 else 43) :: encode ds := by cases negative <;> rfl
    have hpart : signPart ((if negative then 45 else 43) :: (encode ds ++ s)) =
        (negative, encode ds ++ s) := by cases negative <;> rfl
    rw [hsign]
    cases ds with
    | nil => exact absurd rfl hne
    | cons c ds =>
      have hc := isDigit_encode hd _ (head_encode hd ▸ List.mem_cons_self ..)
      rw [head_encode hd] at *
      simp only [List.cons_append] at *
      simp [exponentPart, hpart, hc, htake, hdrop, head_encode hd, -Utf8.encode_cons]

/-! ## Numerals -/

theorem stops_powered {x : Option (Bool × List Char)} {s : Bytes} (hs : Stops inNumeral s) :
    Stops (fun b => isDigit b || b = 46) (encode (Decimal.powered x) ++ s) := by
  cases x with
  | none => exact hs.mono fun b hb => by simp_all [inNumeral]
  | some y => exact stops_cons.mpr rfl

theorem stops_pointed {ds : List Char} {s : Bytes} (hs : Stops isDigit s) :
    Stops isDigit (encode (Decimal.pointed ds) ++ s) := by
  cases ds with
  | nil => exact hs
  | cons c ds => exact stops_cons.mpr rfl

theorem parts_chars {d : Decimal} (h : d.Proper) {s : Bytes} (hs : Stops inNumeral s) :
    ∃ t u, wholePart (encode d.chars ++ s) = .ok (encode d.whole, t) ∧
      fractionPart t = .ok (if d.fraction = [] then none else some (encode d.fraction), u) ∧
      exponentPart u = .ok (d.exponent.map fun y => ⟨y.1, encode y.2⟩, s) := by
  have hu := stops_powered (x := d.exponent) hs
  have hd : Stops isDigit (encode (Decimal.powered d.exponent) ++ s) :=
    hu.mono fun b hb => by simp [hb]
  have hp : (encode (Decimal.powered d.exponent) ++ s).head? ≠ some 46 := fun e => by
    simpa using hu 46 e
  refine ⟨_, _, ?_, fractionPart_pointed h.fraction hd hp, exponentPart_powered h.exponent hs⟩
  rw [Decimal.chars, Utf8.encode_append, Utf8.encode_append, List.append_assoc, List.append_assoc]
  exact wholePart_encode h.whole h.nonempty h.leading (stops_pointed hd)

theorem exponent_value {x : Bool × List Char} (h : AllDigits x.2) :
    (⟨x.1, encode x.2⟩ : Exponent).value = Decimal.signed x := by
  rw [Exponent.value, Decimal.signed, digitsValue_encode h]

theorem realNumber_parts {d : Decimal} (h : d.Proper) {negative : Bool} {x : Binary64}
    (hx : Binary64.ofDecimal? negative d.digits d.power = some x) (s : Bytes) :
    realNumber negative (encode d.whole) (encode d.fraction)
      (d.exponent.map fun y => ⟨y.1, encode y.2⟩) s = .ok (.real x, s) := by
  have hdigits : digitsValue (encode d.whole ++ encode d.fraction) = d.digits := by
    rw [← Utf8.encode_append, digitsValue_encode (h.whole.append h.fraction)]
    rfl
  have hpower : ((d.exponent.map fun y => (⟨y.1, encode y.2⟩ : Exponent)).map Exponent.value).getD 0
      - (encode d.fraction).length = d.power := by
    rw [length_encode h.fraction, Decimal.power, Option.map_map]
    congr 2
    exact Option.map_congr fun y hy => exponent_value (h.exponent y hy).1
  unfold realNumber
  simp only [hdigits, hpower, hx]

theorem numeral_real {d : Decimal} (h : d.Proper)
    (hreal : d.IsReal) {negative : Bool} {x : Binary64}
    (hx : Binary64.ofDecimal? negative d.digits d.power = some x) {s : Bytes}
    (hs : Stops inNumeral s) : numeral negative (encode d.chars ++ s) = .ok (.real x, s) := by
  obtain ⟨t, u, hw, hf, he⟩ := parts_chars h hs
  have hr := realNumber_parts h hx s
  by_cases hd : d.fraction = []
  · have hsome : d.exponent.isSome = true := hreal.resolve_left fun hn => hn hd
    obtain ⟨y, hy⟩ := Option.isSome_iff_exists.mp hsome
    simp only [hd, hy, Option.map_some, if_true, Utf8.encode_nil] at hf he hr
    simp only [numeral, hw, hf, he, Option.isNone_none, Option.isNone_some, Bool.and_false,
      Bool.false_eq_true, if_false, Option.getD_none, hr]
  · simp only [if_neg hd] at hf
    simp only [numeral, hw, hf, he, Option.isNone_some, Bool.false_and, Bool.false_eq_true, if_false,
      Option.getD_some, hr]

theorem numeral_whole {ds : List Char} (h : (Decimal.mk ds [] none).Proper) {negative : Bool}
    {n : Number} (hn : wholeNumber? negative (Nat.ofDigitChars 10 ds 0) = some n) {s : Bytes}
    (hs : Stops inNumeral s) : numeral negative (encode ds ++ s) = .ok (n, s) := by
  obtain ⟨t, u, hw, hf, he⟩ := parts_chars h hs
  simp only [Decimal.chars, Decimal.pointed, Decimal.powered, List.append_nil] at hw
  simp only [if_true, Option.map_none] at hf he
  simp only [numeral, hw, hf, he, Option.isNone_none, Bool.and_self, if_true,
    digitsValue_encode h.whole, hn]

/-! ## Written numbers -/

theorem proper_toDigits (n : Nat) : (Decimal.mk (Nat.toDigits 10 n) [] none).Proper where
  whole := allDigits_toDigits n
  nonempty := Nat.toDigits_ne_nil
  leading h := by
    by_cases hn : n = 0
    · subst hn; rfl
    · exact absurd h (head?_toDigits n hn)
  fraction := fun _ h => by cases h
  exponent := fun _ h => by cases h

theorem numeral_toDigits {negative : Bool} {n : Nat} {v : Number}
    (h : wholeNumber? negative n = some v) {s : Bytes} (hs : Stops inNumeral s) :
    numeral negative (encode (Nat.toDigits 10 n) ++ s) = .ok (v, s) :=
  numeral_whole (proper_toDigits n) (by rwa [Nat.ofDigitChars_ten_toDigits]) hs

theorem wholeNumber?_natural (n : UInt64) : wholeNumber? false n.toNat = some (.natural n) := by
  show Number.ofNat? n.toNat = some (.natural n)
  rw [Number.ofNat?, if_pos n.toNat_lt, Nat.toUInt64_eq, UInt64.ofNat_toNat]

theorem wholeNumber?_negative (m : Fin 0x8000000000000000) :
    wholeNumber? true (m + 1) = some (.negative m) := dif_pos m.isLt

theorem starts_digit {ds : List Char} (h : AllDigits ds) (hne : ds ≠ []) (more : List Char) :
    ∃ b bs, encode (ds ++ more) = b :: bs ∧ isDigit b = true := by
  cases ds with
  | nil => exact absurd rfl hne
  | cons c ds =>
    have hd := isDigit_encode h _ (head_encode h ▸ List.mem_cons_self ..)
    rw [Utf8.encode_append, head_encode h]
    exact ⟨_, _, List.cons_append, hd⟩

/-- A written number is the text of its magnitude, after a minus if it has one,
and reads back as the number. -/
theorem numeral_numberChars (n : Number) : ∃ (negative : Bool) (cs : List Char),
    numberChars n = (if negative then '-' :: cs else cs) ∧
    (∃ b bs, encode cs = b :: bs ∧ isDigit b = true) ∧
    ∀ s, Stops inNumeral s → numeral negative (encode cs ++ s) = .ok (n, s) := by
  have hwhole : ∀ m, ∃ b bs, encode (Nat.toDigits 10 m) = b :: bs ∧ isDigit b = true := by
    intro m
    have h := starts_digit (allDigits_toDigits m) Nat.toDigits_ne_nil []
    rwa [List.append_nil] at h
  cases n with
  | natural n =>
    exact ⟨false, _, rfl, hwhole _, fun s hs => numeral_toDigits (wholeNumber?_natural n) hs⟩
  | negative m =>
    exact ⟨true, _, rfl, hwhole _, fun s hs => numeral_toDigits (wholeNumber?_negative m) hs⟩
  | real x =>
    obtain ⟨d, hproper, hreal, hchars, hx⟩ := Binary64.chars_decimal x
    have hd := starts_digit hproper.whole hproper.nonempty
      (Decimal.pointed d.fraction ++ Decimal.powered d.exponent)
    exact ⟨x.negative, d.chars, hchars, hd, fun s hs => numeral_real hproper hreal hx hs⟩

end RecordSearch.Json
