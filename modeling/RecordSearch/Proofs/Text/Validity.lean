import RecordSearch.Proofs.Text.Utf8

/-!
# Bytes that are UTF-8

Bytes that are read as a character are the bytes of that character, so reading
succeeds exactly on the bytes of some characters, and a fault stands at the end
of their longest valid beginning: `toString?_cases`. Valid bytes may be cut at
every ASCII byte.
-/

namespace RecordSearch.Utf8

/-! ## Single bytes -/

theorem exists_code (b : UInt8) : ∃ k < 256, b = UInt8.ofNat k :=
  ⟨b.toNat, b.toNat_lt, UInt8.ofNat_toNat.symm⟩

theorem width_codes : ∀ k < 256, (width (UInt8.ofNat k) = 1 → k < 128) ∧
    (width (UInt8.ofNat k) = 2 → 0xC2 ≤ k ∧ k < 0xE0) ∧
    (width (UInt8.ofNat k) = 3 → 0xE0 ≤ k ∧ k < 0xF0) ∧
    (width (UInt8.ofNat k) = 4 → 0xF0 ≤ k ∧ k < 0xF5) := by decide +kernel

theorem eq_first_one {b : UInt8} (h : width b = 1) : ∃ n < 128, b = UInt8.ofNat n := by
  obtain ⟨k, hk, rfl⟩ := exists_code b
  exact ⟨k, (width_codes k hk).1 h, rfl⟩

theorem eq_first_two {b : UInt8} (h : width b = 2) :
    ∃ m < 32, 2 ≤ m ∧ b = UInt8.ofNat (m + 0xC0) := by
  obtain ⟨k, hk, rfl⟩ := exists_code b
  obtain ⟨hl, hu⟩ := (width_codes k hk).2.1 h
  exact ⟨k - 0xC0, by omega, by omega, by rw [Nat.sub_add_cancel (by omega)]⟩

theorem eq_first_three {b : UInt8} (h : width b = 3) : ∃ m < 16, b = UInt8.ofNat (m + 0xE0) := by
  obtain ⟨k, hk, rfl⟩ := exists_code b
  obtain ⟨hl, hu⟩ := (width_codes k hk).2.2.1 h
  exact ⟨k - 0xE0, by omega, by rw [Nat.sub_add_cancel hl]⟩

theorem eq_first_four {b : UInt8} (h : width b = 4) : ∃ m < 5, b = UInt8.ofNat (m + 0xF0) := by
  obtain ⟨k, hk, rfl⟩ := exists_code b
  obtain ⟨hl, hu⟩ := (width_codes k hk).2.2.2 h
  exact ⟨k - 0xF0, by omega, by rw [Nat.sub_add_cancel hl]⟩

theorem eq_tail {b : UInt8} (h : isTail b = true) : ∃ n < 64, b = UInt8.ofNat (n + 0x80) := by
  have hcodes : ∀ k < 256, isTail (UInt8.ofNat k) = true → 0x80 ≤ k ∧ k < 0xC0 := by decide +kernel
  obtain ⟨k, hk, rfl⟩ := exists_code b
  obtain ⟨hl, hu⟩ := hcodes k hk h
  exact ⟨k - 0x80, by omega, by rw [Nat.sub_add_cancel hl]⟩

theorem secondRange_bounds (b : UInt8) :
    0x80 ≤ (secondRange b).1.toNat ∧ (secondRange b).2.toNat < 0xC0 := by
  unfold secondRange
  repeat' split
  all_goals decide

/-- The second byte keeps out what is written longer than it need be, surrogates and
what lies beyond the last character. -/
theorem eq_second {b b₁ : UInt8}
    (h : ((secondRange b).1 ≤ b₁ && b₁ ≤ (secondRange b).2) = true) :
    ∃ n < 64, b₁ = UInt8.ofNat (n + 0x80) ∧ (b = 0xE0 → 32 ≤ n) ∧ (b = 0xED → n < 32) ∧
      (b = 0xF0 → 16 ≤ n) ∧ (b = 0xF4 → n < 16) := by
  have hb := secondRange_bounds b
  simp only [Bool.and_eq_true, decide_eq_true_eq, UInt8.le_iff_toNat_le] at h
  have hrange : ∀ x, b = x → (secondRange x).1.toNat ≤ b₁.toNat ∧ b₁.toNat ≤ (secondRange x).2.toNat := by
    intro x hx
    rw [← hx]
    exact h
  refine ⟨b₁.toNat - 0x80, by omega, ?_, ?_, ?_, ?_, ?_⟩
  · rw [Nat.sub_add_cancel (by omega), UInt8.ofNat_toNat]
  · intro hx
    have hlow : 0xA0 ≤ b₁.toNat := (hrange _ hx).1
    omega
  · intro hx
    have hhigh : b₁.toNat ≤ 0x9F := (hrange _ hx).2
    omega
  · intro hx
    have hlow : 0x90 ≤ b₁.toNat := (hrange _ hx).1
    omega
  · intro hx
    have hhigh : b₁.toNat ≤ 0x8F := (hrange _ hx).2
    omega

/-! ## Single characters -/

theorem toNat_ofNat {n : Nat} (h : n < 0xD800 ∨ 0xDFFF < n ∧ n < 0x110000) : (Char.ofNat n).toNat = n := by
  have hv : n.isValidChar := h
  rw [Char.ofNat, dif_pos hv]
  rfl

theorem utf8EncodeChar_two {m n : Nat} (hm : 2 ≤ m) (hm' : m < 32) (hn : n < 64) :
    String.utf8EncodeChar (Char.ofNat (m * 64 + n)) =
      [UInt8.ofNat (m + 0xC0), UInt8.ofNat (n + 0x80)] := by
  have hv : (Char.ofNat (m * 64 + n)).val.toNat = m * 64 + n := toNat_ofNat (by omega)
  simp only [String.utf8EncodeChar, hv]
  rw [if_neg (by omega), if_pos (by omega), show (m * 64 + n) / 64 % 32 = m by omega,
    show (m * 64 + n) % 64 = n by omega]

theorem utf8EncodeChar_three {m n k : Nat} (hm : m < 16) (hn : n < 64) (hk : k < 64)
    (hlow : m = 0 → 32 ≤ n) (hhigh : m = 13 → n < 32) :
    String.utf8EncodeChar (Char.ofNat ((m * 64 + n) * 64 + k)) =
      [UInt8.ofNat (m + 0xE0), UInt8.ofNat (n + 0x80), UInt8.ofNat (k + 0x80)] := by
  have hv : (Char.ofNat ((m * 64 + n) * 64 + k)).val.toNat = (m * 64 + n) * 64 + k :=
    toNat_ofNat (by omega)
  simp only [String.utf8EncodeChar, hv]
  rw [if_neg (by omega), if_neg (by omega), if_pos (by omega),
    show ((m * 64 + n) * 64 + k) / 4096 % 16 = m by omega,
    show ((m * 64 + n) * 64 + k) / 64 % 64 = n by omega,
    show ((m * 64 + n) * 64 + k) % 64 = k by omega]

theorem utf8EncodeChar_four {m n k l : Nat} (hm : m < 5) (hn : n < 64) (hk : k < 64) (hl : l < 64)
    (hlow : m = 0 → 16 ≤ n) (hhigh : m = 4 → n < 16) :
    String.utf8EncodeChar (Char.ofNat (((m * 64 + n) * 64 + k) * 64 + l)) =
      [UInt8.ofNat (m + 0xF0), UInt8.ofNat (n + 0x80), UInt8.ofNat (k + 0x80),
        UInt8.ofNat (l + 0x80)] := by
  have hv : (Char.ofNat (((m * 64 + n) * 64 + k) * 64 + l)).val.toNat =
      ((m * 64 + n) * 64 + k) * 64 + l := toNat_ofNat (by omega)
  simp only [String.utf8EncodeChar, hv]
  rw [if_neg (by omega), if_neg (by omega), if_neg (by omega),
    show (((m * 64 + n) * 64 + k) * 64 + l) / 262144 % 8 = m by omega,
    show (((m * 64 + n) * 64 + k) * 64 + l) / 4096 % 64 = n by omega,
    show (((m * 64 + n) * 64 + k) * 64 + l) / 64 % 64 = k by omega,
    show (((m * 64 + n) * 64 + k) * 64 + l) % 64 = l by omega]

/-! ## What is read as a character -/

section
variable {b : UInt8} {t rest : Bytes} {c : Char}

theorem tails_of_two (hw : width b = 2) (h : start b t = .char c rest) :
    ∃ b₁, t = b₁ :: rest ∧ isTail b₁ = true := by
  simp only [start, hw] at h
  split at h
  · cases h
  split at h
  · rename_i h₁
    cases h
    exact ⟨_, rfl, h₁⟩
  · cases h

theorem tails_of_three (hw : width b = 3) (h : start b t = .char c rest) :
    ∃ b₁ b₂, t = b₁ :: b₂ :: rest ∧ ((secondRange b).1 ≤ b₁ && b₁ ≤ (secondRange b).2) = true ∧
      isTail b₂ = true := by
  simp only [start, hw] at h
  split at h
  · cases h
  split at h
  · rename_i h₁
    split at h
    · cases h
    split at h
    · rename_i h₂
      cases h
      exact ⟨_, _, rfl, h₁, h₂⟩
    · cases h
  · cases h

theorem tails_of_four (hw : width b = 4) (h : start b t = .char c rest) :
    ∃ b₁ b₂ b₃, t = b₁ :: b₂ :: b₃ :: rest ∧
      ((secondRange b).1 ≤ b₁ && b₁ ≤ (secondRange b).2) = true ∧ isTail b₂ = true ∧
      isTail b₃ = true := by
  simp only [start, hw] at h
  split at h
  · cases h
  split at h
  · rename_i h₁
    split at h
    · cases h
    split at h
    · rename_i h₂
      split at h
      · cases h
      split at h
      · rename_i h₃
        cases h
        exact ⟨_, _, _, rfl, h₁, h₂, h₃⟩
      · cases h
    · cases h
  · cases h

/-- Bytes that are read as a character are the bytes of that character. -/
theorem bytes_of_start (h : start b t = .char c rest) :
    b :: t = String.utf8EncodeChar c ++ rest ∧ width b = (String.utf8EncodeChar c).length := by
  have hwidth : width b = 1 ∨ width b = 2 ∨ width b = 3 ∨ width b = 4 := by
    unfold start at h
    split at h <;> simp_all
  rcases hwidth with hw | hw | hw | hw
  · obtain ⟨n, hn, rfl⟩ := eq_first_one hw
    rw [start_one hn] at h
    cases h
    have hc : (Char.ofNat n).toNat = n := toNat_ofNat (by omega)
    rw [utf8EncodeChar_ascii (by omega), hc]
    exact ⟨rfl, hw⟩
  · obtain ⟨b₁, rfl, h₁⟩ := tails_of_two hw h
    obtain ⟨m, hm', hm, rfl⟩ := eq_first_two hw
    obtain ⟨n, hn, rfl⟩ := eq_tail h₁
    rw [start_two hm hm' hn] at h
    cases h
    rw [utf8EncodeChar_two hm hm' hn]
    exact ⟨rfl, hw⟩
  · obtain ⟨b₁, b₂, rfl, h₁, h₂⟩ := tails_of_three hw h
    obtain ⟨m, hm, rfl⟩ := eq_first_three hw
    obtain ⟨n, hn, rfl, hE0, hED, -, -⟩ := eq_second h₁
    obtain ⟨k, hk, rfl⟩ := eq_tail h₂
    have hlow : m = 0 → 32 ≤ n := by
      intro hm
      subst hm
      exact hE0 rfl
    have hhigh : m = 13 → n < 32 := by
      intro hm
      subst hm
      exact hED rfl
    rw [start_three hm hn hk hlow hhigh] at h
    cases h
    rw [utf8EncodeChar_three hm hn hk hlow hhigh]
    exact ⟨rfl, hw⟩
  · obtain ⟨b₁, b₂, b₃, rfl, h₁, h₂, h₃⟩ := tails_of_four hw h
    obtain ⟨m, hm, rfl⟩ := eq_first_four hw
    obtain ⟨n, hn, rfl, -, -, hF0, hF4⟩ := eq_second h₁
    obtain ⟨k, hk, rfl⟩ := eq_tail h₂
    obtain ⟨l, hl, rfl⟩ := eq_tail h₃
    have hlow : m = 0 → 16 ≤ n := by
      intro hm
      subst hm
      exact hF0 rfl
    have hhigh : m = 4 → n < 16 := by
      intro hm
      subst hm
      exact hF4 rfl
    rw [start_four hm hn hk hl hlow hhigh] at h
    cases h
    rw [utf8EncodeChar_four hm hn hk hl hlow hhigh]
    exact ⟨rfl, hw⟩

end

theorem utf8EncodeChar_append_inj {c d : Char} {s t : Bytes}
    (h : String.utf8EncodeChar c ++ s = String.utf8EncodeChar d ++ t) : c = d ∧ s = t := by
  obtain ⟨a, as, ha, hc⟩ := start_utf8EncodeChar c
  obtain ⟨b, bs, hb, hd⟩ := start_utf8EncodeChar d
  rw [ha, hb, List.cons_append, List.cons_append, List.cons.injEq] at h
  have hs := hc s
  rw [h.1, h.2, hd] at hs
  cases hs
  exact ⟨rfl, rfl⟩

/-! ## Valid bytes -/

/-- The bytes of some characters. -/
def Valid (s : Bytes) : Prop := ∃ cs, encode cs = s

theorem valid_nil : Valid [] := ⟨[], rfl⟩

theorem valid_char (c : Char) : Valid (String.utf8EncodeChar c) := ⟨[c], List.append_nil _⟩

theorem Valid.append {s t : Bytes} (hs : Valid s) (ht : Valid t) : Valid (s ++ t) := by
  obtain ⟨cs, rfl⟩ := hs
  obtain ⟨ds, rfl⟩ := ht
  exact ⟨cs ++ ds, encode_append cs ds⟩

theorem utf8EncodeChar_of_ascii {b : UInt8} (h : b.toNat < 128) :
    String.utf8EncodeChar (Char.ofNat b.toNat) = [b] := by
  have hc : (Char.ofNat b.toNat).toNat = b.toNat := toNat_ofNat (by omega)
  rw [utf8EncodeChar_ascii (by omega), hc, UInt8.ofNat_toNat]

theorem valid_ascii {b : UInt8} (h : b.toNat < 128) : Valid [b] :=
  utf8EncodeChar_of_ascii h ▸ valid_char _

theorem valid_after (c : Char) {s : Bytes} (h : Valid (String.utf8EncodeChar c ++ s)) : Valid s := by
  obtain ⟨cs, hcs⟩ := h
  obtain ⟨b, bs, hb, -⟩ := start_utf8EncodeChar c
  cases cs with
  | nil =>
    rw [hb] at hcs
    cases hcs
  | cons d cs =>
    rw [encode_cons] at hcs
    exact ⟨cs, (utf8EncodeChar_append_inj hcs).2⟩

/-- No character goes on beyond an ASCII byte or begins before one. -/
theorem Valid.cut {b : UInt8} (hb : b.toNat < 128) {t u : Bytes} (h : Valid (t ++ b :: u)) :
    Valid t ∧ Valid u := by
  obtain ⟨cs, hcs⟩ := h
  induction cs generalizing t with
  | nil => cases t <;> cases hcs
  | cons c cs ih =>
    rw [encode_cons, List.append_eq_append_iff] at hcs
    rcases hcs with ⟨v, rfl, hrest⟩ | ⟨v, hc, hrest⟩
    · obtain ⟨hv, hu⟩ := ih hrest
      exact ⟨(valid_char c).append hv, hu⟩
    cases v with
    | nil =>
      rw [List.append_nil] at hc
      exact ⟨hc ▸ valid_char c, (ih (t := []) hrest.symm).2⟩
    | cons d v =>
      -- the ASCII byte is one of the character, so it is all of it
      obtain ⟨rfl, rfl⟩ := List.cons.inj hrest
      have hmem : b ∈ String.utf8EncodeChar c := by
        rw [hc]
        exact List.mem_append_right _ (List.mem_cons_self ..)
      rw [ascii_of_mem hmem hb, utf8EncodeChar_of_ascii hb] at hc
      cases t with
      | nil =>
        cases hc
        exact ⟨valid_nil, cs, rfl⟩
      | cons a t => simp at hc

/-! ## Faults -/

/-- The length of the longest valid beginning. -/
def LongestValid (s : Bytes) (n : Nat) : Prop :=
  n ≤ s.length ∧ Valid (s.take n) ∧ ∀ m ≤ s.length, Valid (s.take m) → m ≤ n

/-- Where some bytes begin no character, no longer beginning is valid. -/
theorem length_encode_le {b : UInt8} {t : Bytes} (hstuck : ∀ c rest, start b t ≠ .char c rest) :
    ∀ (cs ds : List Char) {u : Bytes}, encode cs ++ b :: t = encode ds ++ u →
      (encode ds).length ≤ (encode cs).length
  | _, [], _, _ => Nat.zero_le _
  | [], d :: ds, u, h => by
    obtain ⟨a, as, ha, hd⟩ := start_utf8EncodeChar d
    rw [encode_nil, List.nil_append, encode_cons, ha, List.append_assoc, List.cons_append,
      List.cons.injEq] at h
    have hstart := hd (encode ds ++ u)
    rw [← h.1, ← h.2] at hstart
    exact absurd hstart (hstuck _ _)
  | c :: cs, d :: ds, u, h => by
    rw [encode_cons, encode_cons, List.append_assoc, List.append_assoc] at h
    obtain ⟨rfl, hrest⟩ := utf8EncodeChar_append_inj h
    have ih := length_encode_le hstuck cs ds hrest
    rw [encode_cons, encode_cons, List.length_append, List.length_append]
    omega

/-- What a fault says of the bytes at which reading stops. -/
def Fault.Reports (e : Fault) : Start → Prop
  | .char _ _ => False
  | .cut => e.badCount = none
  | .bad n _ => e.badCount = some n

theorem Fault.Reports.stuck {e : Fault} {b : UInt8} {t : Bytes} (h : e.Reports (start b t)) :
    ∀ c rest, start b t ≠ .char c rest := by
  intro c rest hstart
  rw [hstart] at h
  exact h

/-- Either all bytes are read, or some characters and then bytes that begin none. -/
theorem decodeFrom_cases (done : Nat) (acc : List Char) (s : Bytes) :
    (∃ cs, decodeFrom done acc s = .ok cs ∧ Valid s) ∨
    ∃ e cs b t, decodeFrom done acc s = .error e ∧ s = encode cs ++ b :: t ∧
      e.validUpTo = done + (encode cs).length ∧ e.Reports (start b t) := by
  fun_induction decodeFrom done acc s with
  | case1 => exact .inl ⟨_, rfl, valid_nil⟩
  | case2 done acc b t c rest hstart _ ih =>
    obtain ⟨hbytes, hwidth⟩ := bytes_of_start hstart
    rcases ih with ⟨cs, hread, hrest⟩ | ⟨e, cs, a, u, hread, rfl, hlength, hreports⟩
    · refine .inl ⟨cs, hread, ?_⟩
      rw [hbytes]
      exact (valid_char c).append hrest
    · refine .inr ⟨e, c :: cs, a, u, hread, ?_, ?_, hreports⟩
      · rw [hbytes, encode_cons, List.append_assoc]
      · rw [hlength, hwidth, encode_cons, List.length_append, Nat.add_assoc]
  | case3 done acc b t hstart =>
    refine .inr ⟨_, [], b, t, rfl, rfl, rfl, ?_⟩
    rw [hstart]
    rfl
  | case4 done acc b t n _ hstart =>
    refine .inr ⟨_, [], b, t, rfl, rfl, rfl, ?_⟩
    rw [hstart]
    rfl

theorem toString?_stops (s : Bytes) : (∃ t, toString? s = .ok t ∧ Valid s) ∨
    ∃ e cs b t, toString? s = .error e ∧ s = encode cs ++ b :: t ∧
      e.validUpTo = (encode cs).length ∧ e.Reports (start b t) := by
  rcases decodeFrom_cases 0 [] s with ⟨cs, h, hv⟩ | ⟨e, cs, b, t, h, hs, hlength, hreports⟩
  · exact .inl ⟨String.ofList cs, by rw [toString?, decode, h]; rfl, hv⟩
  · rw [Nat.zero_add] at hlength
    exact .inr ⟨e, cs, b, t, by rw [toString?, decode, h]; rfl, hs, hlength, hreports⟩

theorem longestValid_of_stuck {cs : List Char} {b : UInt8} {t : Bytes}
    (hstuck : ∀ c rest, start b t ≠ .char c rest) :
    ¬ Valid (encode cs ++ b :: t) ∧ LongestValid (encode cs ++ b :: t) (encode cs).length := by
  have hlength : (encode cs ++ b :: t).length = (encode cs).length + (t.length + 1) := List.length_append
  refine ⟨?_, by omega, ?_, ?_⟩
  · intro hv
    obtain ⟨ds, hds⟩ := hv
    have hle := length_encode_le hstuck cs ds (u := []) (by rw [hds, List.append_nil])
    rw [hds] at hle
    omega
  · rw [List.take_left]
    exact ⟨cs, rfl⟩
  · intro m hm hv
    obtain ⟨ds, hds⟩ := hv
    have hle := length_encode_le hstuck cs ds (u := (encode cs ++ b :: t).drop m)
      (by rw [hds, List.take_append_drop])
    rwa [hds, List.length_take_of_le hm] at hle

/-- Reading tells valid bytes from others, and of those the longest valid beginning. -/
theorem toString?_cases (s : Bytes) : (∃ t, toString? s = .ok t ∧ Valid s) ∨
    ∃ e, toString? s = .error e ∧ ¬ Valid s ∧ LongestValid s e.validUpTo := by
  rcases toString?_stops s with h | ⟨e, cs, b, t, h, rfl, hlength, hreports⟩
  · exact .inl h
  · exact .inr ⟨e, h, hlength ▸ longestValid_of_stuck hreports.stuck⟩

end RecordSearch.Utf8
