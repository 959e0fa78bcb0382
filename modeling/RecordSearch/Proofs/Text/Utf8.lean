import RecordSearch.Text.Utf8

/-!
# Characters as bytes and back

`decode_encode`: the bytes of a list of characters read back as that list.
ASCII characters are the bytes below 128, so no byte of another character is
mistaken for one.
-/

namespace RecordSearch.Utf8

/-! ## Bytes of a character -/

theorem isTail_ofNat : ∀ n < 64, isTail (UInt8.ofNat (n + 0x80)) = true := by decide +kernel

theorem low_ofNat : ∀ n < 64, low (UInt8.ofNat (n + 0x80)) = n := by decide +kernel

theorem width_one : ∀ n < 128, width (UInt8.ofNat n) = 1 := by decide +kernel

theorem first_two : ∀ m < 32, 2 ≤ m → width (UInt8.ofNat (m + 0xC0)) = 2 ∧
    (UInt8.ofNat (m + 0xC0) &&& 0x1F).toNat = m := by decide +kernel

theorem first_three : ∀ m < 16, width (UInt8.ofNat (m + 0xE0)) = 3 ∧
    (UInt8.ofNat (m + 0xE0) &&& 0x0F).toNat = m := by decide +kernel

theorem first_four : ∀ m < 5, width (UInt8.ofNat (m + 0xF0)) = 4 ∧
    (UInt8.ofNat (m + 0xF0) &&& 0x07).toNat = m := by decide +kernel

/-- Overlong forms and surrogates aside, every tail byte may come second of three. -/
theorem second_three : ∀ m < 16, ∀ n < 64, (m = 0 → 32 ≤ n) → (m = 13 → n < 32) →
    ((secondRange (UInt8.ofNat (m + 0xE0))).1 ≤ UInt8.ofNat (n + 0x80) &&
      UInt8.ofNat (n + 0x80) ≤ (secondRange (UInt8.ofNat (m + 0xE0))).2) = true := by
  decide +kernel

theorem second_four : ∀ m < 5, ∀ n < 64, (m = 0 → 16 ≤ n) → (m = 4 → n < 16) →
    ((secondRange (UInt8.ofNat (m + 0xF0))).1 ≤ UInt8.ofNat (n + 0x80) &&
      UInt8.ofNat (n + 0x80) ≤ (secondRange (UInt8.ofNat (m + 0xF0))).2) = true := by
  decide +kernel

/-! ## One character -/

theorem start_one {n : Nat} (hn : n < 128) (rest : Bytes) :
    start (UInt8.ofNat n) rest = .char (Char.ofNat n) rest := by
  have ht : (UInt8.ofNat n).toNat = n := by
    rw [UInt8.toNat_ofNat']
    omega
  simp only [start, width_one n hn, ht]

theorem start_two {m n : Nat} (hm : 2 ≤ m) (hm' : m < 32) (hn : n < 64) (rest : Bytes) :
    start (UInt8.ofNat (m + 0xC0)) (UInt8.ofNat (n + 0x80) :: rest) =
      .char (Char.ofNat (m * 64 + n)) rest := by
  obtain ⟨hw, hb⟩ := first_two m hm' hm
  simp only [start, hw, hb, isTail_ofNat n hn, low_ofNat n hn, if_true]

theorem start_three {m n k : Nat} (hm : m < 16) (hn : n < 64) (hk : k < 64) (hlow : m = 0 → 32 ≤ n)
    (hhigh : m = 13 → n < 32) (rest : Bytes) :
    start (UInt8.ofNat (m + 0xE0)) (UInt8.ofNat (n + 0x80) :: UInt8.ofNat (k + 0x80) :: rest) =
      .char (Char.ofNat ((m * 64 + n) * 64 + k)) rest := by
  obtain ⟨hw, hb⟩ := first_three m hm
  simp only [start, hw, hb, second_three m hm n hn hlow hhigh, isTail_ofNat k hk, low_ofNat n hn,
    low_ofNat k hk, if_true]

theorem start_four {m n k l : Nat} (hm : m < 5) (hn : n < 64) (hk : k < 64) (hl : l < 64)
    (hlow : m = 0 → 16 ≤ n) (hhigh : m = 4 → n < 16) (rest : Bytes) :
    start (UInt8.ofNat (m + 0xF0))
        (UInt8.ofNat (n + 0x80) :: UInt8.ofNat (k + 0x80) :: UInt8.ofNat (l + 0x80) :: rest) =
      .char (Char.ofNat (((m * 64 + n) * 64 + k) * 64 + l)) rest := by
  obtain ⟨hw, hb⟩ := first_four m hm
  simp only [start, hw, hb, second_four m hm n hn hlow hhigh, isTail_ofNat k hk, isTail_ofNat l hl,
    low_ofNat n hn, low_ofNat k hk, low_ofNat l hl, if_true]

theorem valid_toNat (c : Char) : c.toNat < 0xD800 ∨ 0xDFFF < c.toNat ∧ c.toNat < 0x110000 :=
  c.valid

theorem start_utf8EncodeChar (c : Char) : ∃ b bs, String.utf8EncodeChar c = b :: bs ∧
    ∀ rest, start b (bs ++ rest) = .char c rest := by
  have hv := valid_toNat c
  have hc : c.val.toNat = c.toNat := rfl
  have back : ∀ n, n = c.toNat → Char.ofNat n = c := fun n hn => hn ▸ Char.ofNat_toNat c
  simp only [String.utf8EncodeChar, hc]
  split
  · exact ⟨_, [], rfl, fun rest => by rw [List.nil_append, start_one (by omega), back _ rfl]⟩
  split
  · refine ⟨_, [_], rfl, fun rest => ?_⟩
    rw [List.singleton_append, start_two (by omega) (by omega) (by omega), back _ (by omega)]
  split
  · refine ⟨_, [_, _], rfl, fun rest => ?_⟩
    rw [List.cons_append, List.singleton_append, start_three (by omega) (by omega) (by omega)
      (by omega) (by omega), back _ (by omega)]
  · refine ⟨_, [_, _, _], rfl, fun rest => ?_⟩
    rw [List.cons_append, List.cons_append, List.singleton_append, start_four (by omega) (by omega)
      (by omega) (by omega) (by omega) (by omega), back _ (by omega)]

/-! ## Whole texts -/

@[simp] theorem encode_nil : encode [] = [] := rfl

@[simp] theorem encode_cons (c : Char) (cs : List Char) :
    encode (c :: cs) = String.utf8EncodeChar c ++ encode cs := rfl

@[simp] theorem encode_append (cs ds : List Char) : encode (cs ++ ds) = encode cs ++ encode ds :=
  List.flatMap_append

theorem decodeFrom_encode (cs : List Char) (done : Nat) (acc : List Char) :
    decodeFrom done acc (encode cs) = .ok (acc.reverse ++ cs) := by
  induction cs generalizing done acc with
  | nil => rw [encode_nil, decodeFrom, List.append_nil]
  | cons c cs ih =>
    obtain ⟨b, bs, hbs, hstart⟩ := start_utf8EncodeChar c
    rw [encode_cons, hbs, List.cons_append, decodeFrom]
    split
    · rename_i d rest h
      rw [hstart] at h
      cases h
      rw [ih, List.reverse_cons, List.append_assoc, List.singleton_append]
    · rename_i h
      rw [hstart] at h
      cases h
    · rename_i h
      rw [hstart] at h
      cases h

theorem decode_encode (cs : List Char) : decode (encode cs) = .ok cs := decodeFrom_encode cs 0 []

theorem toString?_encode (cs : List Char) : toString? (encode cs) = .ok (String.ofList cs) := by
  rw [toString?, decode_encode]
  rfl

theorem lossyFrom_encode (cs : List Char) (acc : List Char) :
    lossyFrom acc (encode cs) = acc.reverse ++ cs := by
  induction cs generalizing acc with
  | nil => rw [encode_nil, lossyFrom, List.append_nil]
  | cons c cs ih =>
    obtain ⟨b, bs, hbs, hstart⟩ := start_utf8EncodeChar c
    rw [encode_cons, hbs, List.cons_append, lossyFrom]
    split
    · rename_i d rest h
      rw [hstart] at h
      cases h
      rw [ih, List.reverse_cons, List.append_assoc, List.singleton_append]
    · rename_i h
      rw [hstart] at h
      cases h
    · rename_i h
      rw [hstart] at h
      cases h

theorem decodeLossy_encode (cs : List Char) : decodeLossy (encode cs) = cs := lossyFrom_encode cs []

/-! ## ASCII -/

theorem utf8EncodeChar_ascii {c : Char} (h : c.toNat < 128) :
    String.utf8EncodeChar c = [UInt8.ofNat c.toNat] := by
  have hc : c.val.toNat ≤ 0x7f := Nat.le_of_lt_succ h
  simp only [String.utf8EncodeChar, hc, if_true]
  rfl

theorem encode_ascii {cs : List Char} (h : ∀ c ∈ cs, c.toNat < 128) :
    encode cs = cs.map fun c => UInt8.ofNat c.toNat := by
  induction cs with
  | nil => rfl
  | cons c cs ih =>
    rw [encode_cons, utf8EncodeChar_ascii (h c (List.mem_cons_self ..)),
      ih fun d hd => h d (List.mem_cons_of_mem _ hd)]
    rfl

theorem high_bytes {c : Char} (h : 128 ≤ c.toNat) : ∀ b ∈ String.utf8EncodeChar c, 128 ≤ b.toNat := by
  have hv := valid_toNat c
  have hc : c.val.toNat = c.toNat := rfl
  intro b hb
  simp only [String.utf8EncodeChar, hc] at hb
  repeat' split at hb
  all_goals
    simp only [List.mem_cons, List.not_mem_nil, or_false] at hb
    rcases hb with rfl | rfl | rfl | rfl <;> rw [UInt8.toNat_ofNat'] <;> omega

theorem ascii_of_mem {c : Char} {b : UInt8} (h : b ∈ String.utf8EncodeChar c) (hb : b.toNat < 128) :
    c = Char.ofNat b.toNat := by
  rcases Nat.lt_or_ge c.toNat 128 with hc | hc
  · rw [utf8EncodeChar_ascii hc, List.mem_singleton] at h
    have hn : b.toNat = c.toNat := by
      rw [h, UInt8.toNat_ofNat']
      omega
    rw [hn, Char.ofNat_toNat]
  · have := high_bytes hc b h
    omega

end RecordSearch.Utf8
