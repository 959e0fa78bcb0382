import RecordSearch.Json.Reader
import RecordSearch.Json.Writer
import RecordSearch.Proofs.Text.Utf8

/-!
# Strings written and read

`stringTail_quote`: a written string reads back as itself, whatever its
characters. Each character is one step of the reader over the bytes of its
escape.
-/

namespace RecordSearch.Json

open Text (hexValue?)
open Utf8 (encode encode_cons encode_append encode_nil)

/-! ## Steps of the reader -/

theorem stringFrom_escape (whole acc : Bytes) {t u : Bytes} {c : Char} (h : escape t = .ok (c, u)) :
    stringFrom whole acc (92 :: t) =
      stringFrom whole ((String.utf8EncodeChar c).reverse ++ acc) u := by
  rw [stringFrom, if_neg (by decide), if_pos rfl]
  split
  · rename_i e he
    rw [h] at he
    cases he
  · rename_i d v hd
    rw [h] at hd
    cases hd
    rfl

theorem stringFrom_plain (whole acc rest bs : Bytes)
    (h : ∀ b ∈ bs, b ≠ 34 ∧ b ≠ 92 ∧ ¬ b < 32) :
    stringFrom whole acc (bs ++ rest) = stringFrom whole (bs.reverse ++ acc) rest := by
  induction bs generalizing acc with
  | nil => rfl
  | cons b bs ih =>
    obtain ⟨hq, hs, hc⟩ := h b (List.mem_cons_self ..)
    rw [List.cons_append, stringFrom, if_neg hq, if_neg hs, if_neg hc,
      ih _ fun d hd => h d (List.mem_cons_of_mem _ hd), List.reverse_cons, List.append_assoc,
      List.singleton_append]

theorem stringFrom_close (whole acc rest : Bytes) {text : String} (h : Utf8.toString? acc.reverse = .ok text) :
    stringFrom whole acc (34 :: rest) = .ok (text, rest) := by
  rw [stringFrom, if_pos rfl, h]

/-! ## Escapes -/

theorem hexValue?_hexDigit : ∀ n < 16, hexValue? (UInt8.ofNat (hexDigit n).toNat) = some n := by
  decide +kernel

theorem hexDigit_ascii : ∀ n < 16, (hexDigit n).toNat < 128 := by decide +kernel

theorem hexDigit_mod (n : Nat) : hexDigit n = hexDigit (n % 16) := by
  rw [hexDigit, hexDigit, Nat.mod_mod]

theorem unicodeEscape_hex {c : Char} (h : c.toNat < 32) (rest : Bytes) :
    unicodeEscape (encode ['0', '0', hexDigit (c.toNat / 16), hexDigit c.toNat] ++ rest) =
      .ok (c, rest) := by
  have hhigh := hexValue?_hexDigit (c.toNat / 16) (by omega)
  have hlow := hexValue?_hexDigit (c.toNat % 16) (by omega)
  have hascii : ∀ d ∈ ['0', '0', hexDigit (c.toNat / 16), hexDigit c.toNat], d.toNat < 128 := by
    intro d hd
    simp only [List.mem_cons, List.not_mem_nil, or_false] at hd
    rcases hd with rfl | rfl | rfl | rfl
    · decide
    · decide
    · exact hexDigit_ascii _ (by omega)
    · rw [hexDigit_mod]
      exact hexDigit_ascii _ (by omega)
  have hzero : hexValue? (UInt8.ofNat '0'.toNat) = some 0 := by decide
  have hn : (((0 * 16 + 0) * 16 + c.toNat / 16) * 16 + c.toNat % 16) = c.toNat := by omega
  have hl : isLowSurrogate c.toNat = false := by
    simp only [isLowSurrogate, Bool.and_eq_false_iff, decide_eq_false_iff_not]
    omega
  have hh : isHighSurrogate c.toNat = false := by
    simp only [isHighSurrogate, Bool.and_eq_false_iff, decide_eq_false_iff_not]
    omega
  rw [Utf8.encode_ascii hascii, hexDigit_mod c.toNat]
  simp only [List.map_cons, List.map_nil, List.cons_append, List.nil_append, unicodeEscape, hexFour,
    hzero, hhigh, hlow, hn, hl, hh, Bool.false_eq_true, if_false, Char.ofNat_toNat]

theorem stringFrom_letter (whole acc rest : Bytes) {c letter : Char} (hl : letter.toNat < 128)
    (h : escape (UInt8.ofNat letter.toNat :: rest) = .ok (c, rest)) :
    stringFrom whole acc (encode ['\\', letter] ++ rest) =
      stringFrom whole ((String.utf8EncodeChar c).reverse ++ acc) rest := by
  rw [encode_cons, encode_cons, Utf8.utf8EncodeChar_ascii hl, Utf8.utf8EncodeChar_ascii (by decide)]
  exact stringFrom_escape whole acc h

theorem eq_of_toNat {c : Char} {n : Nat} (h : c.toNat = n) : c = Char.ofNat n := by
  rw [← h, Char.ofNat_toNat]

theorem plain_bytes {c : Char} (hq : c ≠ '"') (hs : c ≠ '\\') (hc : ¬ c.toNat < 32) :
    ∀ b ∈ String.utf8EncodeChar c, b ≠ 34 ∧ b ≠ 92 ∧ ¬ b < 32 := by
  intro b hb
  suffices h : b.toNat ≠ 34 ∧ b.toNat ≠ 92 ∧ ¬ b.toNat < 32 from
    ⟨fun e => h.1 (e ▸ rfl), fun e => h.2.1 (e ▸ rfl), h.2.2⟩
  by_cases ha : c.toNat < 128
  · rw [Utf8.utf8EncodeChar_ascii ha, List.mem_singleton] at hb
    have hb' : b.toNat = c.toNat := by
      rw [hb, UInt8.toNat_ofNat']
      omega
    rw [hb']
    exact ⟨fun e => hq (eq_of_toNat e), fun e => hs (eq_of_toNat e), hc⟩
  · have := Utf8.high_bytes (by omega) b hb
    omega

theorem stringFrom_escapeChar (whole acc rest : Bytes) (c : Char) :
    stringFrom whole acc (encode (escapeChar c) ++ rest) =
      stringFrom whole ((String.utf8EncodeChar c).reverse ++ acc) rest := by
  unfold escapeChar
  split
  · subst c; exact stringFrom_letter whole acc rest (by decide) rfl
  split
  · subst c; exact stringFrom_letter whole acc rest (by decide) rfl
  split
  · subst c; exact stringFrom_letter whole acc rest (by decide) rfl
  split
  · subst c; exact stringFrom_letter whole acc rest (by decide) rfl
  split
  · subst c; exact stringFrom_letter whole acc rest (by decide) rfl
  split
  · rename_i h
    rw [eq_of_toNat h]
    exact stringFrom_letter whole acc rest (by decide) rfl
  split
  · rename_i h
    rw [eq_of_toNat h]
    exact stringFrom_letter whole acc rest (by decide) rfl
  split
  · rename_i h
    rw [encode_cons, encode_cons, Utf8.utf8EncodeChar_ascii (by decide),
      Utf8.utf8EncodeChar_ascii (by decide)]
    exact stringFrom_escape whole acc (unicodeEscape_hex h rest)
  · rename_i hq hs _ _ _ _ _ hc
    rw [encode_cons, encode_nil, List.append_nil]
    exact stringFrom_plain whole acc rest _ (plain_bytes hq hs hc)

/-! ## Whole strings -/

theorem stringFrom_escaped (whole acc rest : Bytes) (cs : List Char) :
    stringFrom whole acc (encode (cs.flatMap escapeChar) ++ rest) =
      stringFrom whole ((encode cs).reverse ++ acc) rest := by
  induction cs generalizing acc with
  | nil => rfl
  | cons c cs ih =>
    rw [List.flatMap_cons, encode_append, List.append_assoc, stringFrom_escapeChar, ih, encode_cons,
      List.reverse_append, List.append_assoc]

/-- A written string is a quote and the bytes that read back as the string. -/
theorem stringTail_quote (text : String) : ∃ bs, encode (quote text) = 34 :: bs ∧
    ∀ rest, stringTail (bs ++ rest) = .ok (text, rest) := by
  refine ⟨encode (text.toList.flatMap escapeChar) ++ [34], ?_, fun rest => ?_⟩
  · rw [quote, encode_cons, encode_append, encode_cons, encode_nil]
    rfl
  · have htext : Utf8.toString? (encode text.toList).reverse.reverse = .ok text := by
      rw [List.reverse_reverse, Utf8.toString?_encode, String.ofList_toList]
    rw [stringTail, List.append_assoc, stringFrom_escaped, List.append_nil, List.singleton_append]
    exact stringFrom_close _ _ _ htext

end RecordSearch.Json
