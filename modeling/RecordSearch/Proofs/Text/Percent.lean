import RecordSearch.Proofs.Text.Runs
import RecordSearch.Proofs.Text.Utf8
import RecordSearch.Text.Percent

/-!
# Percent-encoded texts

A byte may be written as an escape, in digits of either case; a letter, a digit
and a few signs may stand for themselves, and a plus sign for a space. Every
such text is read back, and so is a form of one field with such a value
(`formFields_single`).
-/

namespace RecordSearch.Percent

open Utf8 (encode ofString)

/-! ## Encodings -/

def isSafe (c : Char) : Bool := c.isAlphanum || c = '-' || c = '_' || c = '.'

def IsHexDigit (n : Nat) (c : Char) : Prop :=
  "0123456789abcdef".toList[n]? = some c ∨ "0123456789ABCDEF".toList[n]? = some c

inductive Encodes : Bytes → List Char → Prop
  | nil : Encodes [] []
  | safe {c : Char} {s : Bytes} {e : List Char} : isSafe c = true → Encodes s e →
      Encodes (UInt8.ofNat c.toNat :: s) (c :: e)
  | plus {s : Bytes} {e : List Char} : Encodes s e → Encodes (32 :: s) ('+' :: e)
  | escape {b : UInt8} {high low : Char} {s : Bytes} {e : List Char} :
      IsHexDigit (b.toNat / 16) high → IsHexDigit (b.toNat % 16) low → Encodes s e →
      Encodes (b :: s) ('%' :: high :: low :: e)

/-! ## Characters of an encoding -/

def isCode (c : Char) : Bool := isSafe c || c = '+' || c = '%'

theorem isAlphanum_ascii {c : Char} (h : c.isAlphanum = true) : c.toNat < 128 := by
  delta Char.isAlphanum Char.isAlpha Char.isUpper Char.isLower Char.isDigit at h
  have hc : c.val.toNat = c.toNat := rfl
  have hz : 'z'.val.toNat = 122 := rfl
  have hZ : 'Z'.val.toNat = 90 := rfl
  have h9 : '9'.val.toNat = 57 := rfl
  simp only [Bool.or_eq_true, Bool.and_eq_true, decide_eq_true_eq, UInt32.le_iff_toNat_le, hc] at h
  omega

theorem isSafe_ascii {c : Char} (h : isSafe c = true) : c.toNat < 128 := by
  simp only [isSafe, Bool.or_eq_true, decide_eq_true_eq] at h
  rcases h with ((h | rfl) | rfl) | rfl
  · exact isAlphanum_ascii h
  · decide
  · decide
  · decide

theorem hexDigits_read : ∀ n < 16, ∀ digits ∈ ["0123456789abcdef", "0123456789ABCDEF"],
    (digits.toList[n]?.all fun c =>
      Text.hexValue? (UInt8.ofNat c.toNat) == some n && isSafe c) = true := by decide

theorem IsHexDigit.read {n : Nat} {c : Char} (h : IsHexDigit n c) :
    Text.hexValue? (UInt8.ofNat c.toNat) = some n ∧ isSafe c = true := by
  have key : ∀ digits ∈ ["0123456789abcdef", "0123456789ABCDEF"], digits.toList.length = 16 →
      digits.toList[n]? = some c → Text.hexValue? (UInt8.ofNat c.toNat) = some n ∧ isSafe c = true := by
    intro digits hd hl hc
    have hn : n < 16 := hl ▸ (List.getElem?_eq_some_iff.mp hc).1
    have := hexDigits_read n hn digits hd
    rw [hc] at this
    simpa using this
  rcases h with h | h
  · exact key _ (by simp) rfl h
  · exact key _ (by simp) rfl h

theorem Encodes.isCode {s : Bytes} {e : List Char} (h : Encodes s e) :
    ∀ c ∈ e, isCode c = true := by
  induction h with
  | nil => intro c hc; cases hc
  | safe hs _ ih =>
    intro c hc
    rcases List.mem_cons.mp hc with rfl | hc
    · simp [Percent.isCode, hs]
    · exact ih c hc
  | plus _ ih =>
    intro c hc
    rcases List.mem_cons.mp hc with rfl | hc
    · rfl
    · exact ih c hc
  | escape hh hl _ ih =>
    intro c hc
    simp only [List.mem_cons] at hc
    rcases hc with rfl | rfl | rfl | hc
    · rfl
    · simp [Percent.isCode, hh.read.2]
    · simp [Percent.isCode, hl.read.2]
    · exact ih c hc

theorem encodes_safe : ∀ {e : List Char}, (∀ c ∈ e, isSafe c = true) → Encodes (encode e) e
  | [], _ => .nil
  | c :: e, h => by
    have hc := h c (List.mem_cons_self ..)
    rw [Utf8.encode_cons, Utf8.utf8EncodeChar_ascii (isSafe_ascii hc)]
    exact .safe hc (encodes_safe fun d hd => h d (List.mem_cons_of_mem _ hd))

/-! ## Reading -/

theorem decode_cons {b : UInt8} (h : b ≠ 37) : ∀ s : Bytes, decode (b :: s) = b :: decode s
  | [] => rfl
  | [_] => rfl
  | c :: d :: s => by
    have he : escaped? b c d = none := by simp [escaped?, h]
    rw [decode, he]

theorem decode_escape {c d b : UInt8} (hc : Text.hexValue? c = some (b.toNat / 16))
    (hd : Text.hexValue? d = some (b.toNat % 16)) (s : Bytes) :
    decode (37 :: c :: d :: s) = b :: decode s := by
  have he : escaped? 37 c d = some b := by
    have hb : b.toNat / 16 * 16 + b.toNat % 16 = b.toNat := by omega
    simp [escaped?, hc, hd, hb]
  rw [decode, he]

def spaced (b : UInt8) : UInt8 := if b == 43 then 32 else b

theorem spaced_safe {c : Char} (h : isSafe c = true) :
    spaced (UInt8.ofNat c.toNat) = UInt8.ofNat c.toNat ∧ UInt8.ofNat c.toNat ≠ 37 := by
  have hc := isSafe_ascii h
  have hne : ∀ n < 128, isSafe (Char.ofNat n) = false → UInt8.ofNat c.toNat ≠ UInt8.ofNat n := by
    intro n hn hs e
    have ht := congrArg UInt8.toNat e
    rw [UInt8.toNat_ofNat', UInt8.toNat_ofNat', Nat.mod_eq_of_lt (by omega),
      Nat.mod_eq_of_lt (by omega)] at ht
    rw [← ht, Char.ofNat_toNat, h] at hs
    cases hs
  refine ⟨?_, hne 37 (by decide) rfl⟩
  have : UInt8.ofNat c.toNat ≠ 43 := hne 43 (by decide) rfl
  simp [spaced, this]

theorem decode_spaced {s : Bytes} {e : List Char} (h : Encodes s e) :
    decode ((encode e).map spaced) = s := by
  induction h with
  | nil => rfl
  | safe hs _ ih =>
    obtain ⟨hsp, hne⟩ := spaced_safe hs
    rw [Utf8.encode_cons, Utf8.utf8EncodeChar_ascii (isSafe_ascii hs), List.singleton_append,
      List.map_cons, hsp, decode_cons hne, ih]
  | plus _ ih =>
    rw [Utf8.encode_cons, Utf8.utf8EncodeChar_ascii (by decide), List.singleton_append,
      List.map_cons]
    exact (decode_cons (by decide) _).trans (congrArg _ ih)
  | escape hh hl _ ih =>
    obtain ⟨hh, hhs⟩ := hh.read
    obtain ⟨hl, hls⟩ := hl.read
    rw [Utf8.encode_cons, Utf8.encode_cons, Utf8.encode_cons, Utf8.utf8EncodeChar_ascii (by decide),
      Utf8.utf8EncodeChar_ascii (isSafe_ascii hhs), Utf8.utf8EncodeChar_ascii (isSafe_ascii hls)]
    simp only [List.singleton_append, List.map_cons, (spaced_safe hhs).1, (spaced_safe hls).1]
    exact (decode_escape hh hl _).trans (congrArg _ ih)

theorem formText_encodes {s : String} {e : List Char} (h : Encodes (ofString s) e) :
    formText (encode e) = s := by
  have hd := decode_spaced h
  unfold spaced at hd
  rw [formText, hd, ofString, Utf8.decodeLossy_encode, String.ofList_toList]

/-! ## Forms -/

theorem byte_notMem {e : List Char} (he : ∀ c ∈ e, isCode c = true) {b : UInt8} (hb : b.toNat < 128)
    (h : isCode (Char.ofNat b.toNat) = false) : b ∉ encode e := by
  intro hm
  obtain ⟨c, hc, hbc⟩ := List.mem_flatMap.mp hm
  have := he c hc
  rw [Utf8.ascii_of_mem hbc hb, h] at this
  cases this

theorem formFields_single {name value : String} {n v : List Char} (hn : Encodes (ofString name) n)
    (hv : Encodes (ofString value) v) :
    formFields (encode (n ++ '=' :: v)) = [(name, value)] := by
  have hs : encode (n ++ '=' :: v) = encode n ++ 61 :: encode v := by
    rw [Utf8.encode_append, Utf8.encode_cons, Utf8.utf8EncodeChar_ascii (by decide)]
    rfl
  have hamp : (38 : UInt8) ∉ encode n ++ 61 :: encode v := by
    rw [List.mem_append, List.mem_cons, not_or, not_or]
    exact ⟨byte_notMem hn.isCode (by decide) rfl, by decide, byte_notMem hv.isCode (by decide) rfl⟩
  have heq : (61 : UInt8) ∉ encode n := byte_notMem hn.isCode (by decide) rfl
  have hfield : formField (encode n ++ 61 :: encode v) = (name, value) := by
    rw [formField, Text.splitFirst?_of_notMem heq]
    simp only [formText_encodes hn, formText_encodes hv]
  rw [formFields, hs, List.splitOn_eq_singleton hamp, List.filter_cons_of_pos (by simp), List.filter_nil,
    List.map_cons, hfield, List.map_nil]

end RecordSearch.Percent
