import RecordSearch.Proofs.Json.Depth
import RecordSearch.Proofs.Json.Lists

/-!
# Values written and read

`value_chars`: a written value reads back as itself, if the reader may open as
many arrays and objects as the value has within one another.
-/

namespace RecordSearch.Json

open Text (isDigit Stops stops_nil stops_cons)
open Utf8 (encode encode_nil encode_cons encode_append)

/-! ## Shapes of texts -/

theorem charsItems_eq (items : List Json) : charsItems items = items.map chars := by
  induction items with
  | nil => rw [charsItems, List.map_nil]
  | cons v rest ih => rw [charsItems, ih, List.map_cons]

theorem charsMembers_eq (l : List (String × Json)) :
    charsMembers l = l.map fun p => member p.1 (chars p.2) := by
  induction l with
  | nil => rw [charsMembers, List.map_nil]
  | cons p rest ih =>
    obtain ⟨name, v⟩ := p
    rw [charsMembers, ih, List.map_cons]

/-- A list between its brackets. -/
def enclosed (a b : Char) (xs : List (List Char)) : List Char := a :: (separated xs ++ [b])

theorem bracketed_eq (xs : List (List Char)) : bracketed xs = enclosed '[' ']' xs := rfl

theorem braced_eq (xs : List (List Char)) : braced xs = enclosed '{' '}' xs := rfl

theorem encode_enclosed {a b : Char} (ha : a.toNat < 128) (hb : b.toNat < 128)
    (xs : List (List Char)) (rest : Bytes) :
    encode (enclosed a b xs) ++ rest =
      UInt8.ofNat a.toNat :: (encode (separated xs) ++ UInt8.ofNat b.toNat :: rest) := by
  rw [enclosed, encode_cons, encode_append, encode_cons, encode_nil, List.append_nil,
    Utf8.utf8EncodeChar_ascii ha, Utf8.utf8EncodeChar_ascii hb, List.append_assoc, List.append_assoc]
  rfl

theorem following_lt_enclosed {a b : Char} (ha : a.toNat < 128) (hb : b.toNat < 128)
    (xs : List (List Char)) :
    (encode (following xs)).length < (encode (enclosed a b xs)).length := by
  have h := congrArg List.length (encode_enclosed ha hb xs [])
  rw [List.append_nil, List.length_cons, List.length_append, List.length_singleton] at h
  have := following_lt_separated xs
  omega

theorem encode_array (items : List Json) (rest : Bytes) :
    encode (Json.array items).chars ++ rest =
      91 :: (encode (separated (charsItems items)) ++ 93 :: rest) := by
  rw [chars, bracketed_eq, encode_enclosed (by decide) (by decide)]
  rfl

theorem encode_object (l : List (String × Json)) (rest : Bytes) :
    encode (Json.object l).chars ++ rest =
      123 :: (encode (separated (charsMembers l)) ++ 125 :: rest) := by
  rw [chars, braced_eq, encode_enclosed (by decide) (by decide)]
  rfl

/-! ## Lengths

An item or a member takes one byte at least, and less than the list it is in. -/

theorem length_lt_array (items : List Json) :
    items.length < (encode (Json.array items).chars).length := by
  have hcount := length_le_following (items.map chars)
  rw [List.length_map] at hcount
  rw [chars, charsItems_eq, bracketed_eq]
  exact Nat.lt_of_le_of_lt hcount (following_lt_enclosed (by decide) (by decide) _)

theorem item_lt_array {v : Json} {items : List Json} (h : v ∈ items) :
    (encode v.chars).length < (encode (Json.array items).chars).length := by
  rw [chars, charsItems_eq, bracketed_eq]
  exact Nat.lt_of_le_of_lt (mem_length_le_following (List.mem_map_of_mem h))
    (following_lt_enclosed (by decide) (by decide) _)

theorem length_lt_object (l : List (String × Json)) :
    l.length < (encode (Json.object l).chars).length := by
  have hcount := length_le_following (l.map fun p => member p.1 (chars p.2))
  rw [List.length_map] at hcount
  rw [chars, charsMembers_eq, braced_eq]
  exact Nat.lt_of_le_of_lt hcount (following_lt_enclosed (by decide) (by decide) _)

theorem member_lt_object {p : String × Json} {l : List (String × Json)} (h : p ∈ l) :
    (encode p.2.chars).length < (encode (Json.object l).chars).length := by
  have hmem : member p.1 (chars p.2) ∈ l.map fun p => member p.1 (chars p.2) := List.mem_map_of_mem h
  have hshort := mem_length_le_following hmem
  have hlong := following_lt_enclosed (a := '{') (b := '}') (by decide) (by decide)
    (l.map fun p => member p.1 (chars p.2))
  rw [member, encode_append, encode_cons, List.length_append, List.length_append] at hshort
  rw [chars, charsMembers_eq, braced_eq]
  omega

/-! ## First bytes -/

theorem encode_numberChars (n : Number) : ∃ b bs, encode (numberChars n) = b :: bs ∧
    ((b = 45 ∧ ∀ s, Stops inNumeral s → numeral true (bs ++ s) = .ok (n, s)) ∨
      (isDigit b = true ∧ ∀ s, Stops inNumeral s → numeral false (b :: (bs ++ s)) = .ok (n, s))) := by
  obtain ⟨negative, cs, hchars, ⟨b, bs, hb, hd⟩, hread⟩ := numeral_numberChars n
  rw [hchars]
  cases negative with
  | true => exact ⟨45, encode cs, rfl, .inl ⟨rfl, hread⟩⟩
  | false =>
    rw [hb] at hread
    exact ⟨b, bs, hb, .inr ⟨hd, hread⟩⟩

theorem digit_ne {b c : UInt8} (h : isDigit b = true) (hc : isDigit c = false) : b ≠ c := fun e => by
  rw [e, hc] at h
  cases h

theorem digit_not_blank {b : UInt8} (h : isDigit b = true) : isBlank b = false := by
  simp [isBlank, digit_ne (c := 32) h rfl, digit_ne (c := 9) h rfl, digit_ne (c := 10) h rfl,
    digit_ne (c := 13) h rfl]

theorem opens_chars (v : Json) : Opens v.chars := by
  cases v with
  | null => exact ⟨110, _, rfl, rfl, by decide⟩
  | bool b => cases b with
    | true => exact ⟨116, _, rfl, rfl, by decide⟩
    | false => exact ⟨102, _, rfl, rfl, by decide⟩
  | number n =>
    obtain ⟨b, bs, he, hb⟩ := encode_numberChars n
    refine ⟨b, bs, by rw [chars, he], ?_⟩
    rcases hb with ⟨rfl, -⟩ | ⟨hd, -⟩
    · exact ⟨rfl, by decide⟩
    · exact ⟨digit_not_blank hd, digit_ne hd rfl⟩
  | string s =>
    obtain ⟨bs, hq, -⟩ := stringTail_quote s
    exact ⟨34, bs, by rw [chars, hq], rfl, by decide⟩
  | array items =>
    have h := encode_array items []
    rw [List.append_nil] at h
    exact ⟨91, _, h, rfl, by decide⟩
  | object members =>
    have h := encode_object members []
    rw [List.append_nil] at h
    exact ⟨123, _, h, rfl, by decide⟩

/-! ## Reading back -/

theorem scalarOr_chars (nested : Bytes → Outcome Json) {v : Json} (hv : v.depth = 0) :
    ReadsAs (scalarOr nested) v.chars v := by
  intro rest hs
  cases v with
  | null => rfl
  | bool b => cases b <;> rfl
  | number n =>
    obtain ⟨b, bs, he, hb⟩ := encode_numberChars n
    rw [chars, he, List.cons_append, scalarOr]
    rcases hb with ⟨rfl, hread⟩ | ⟨hd, hread⟩
    · rw [skipBlanks_cons rfl]
      simp [hread rest hs, Except.map]
    · rw [skipBlanks_cons (digit_not_blank hd)]
      simp [digit_ne (c := 110) hd rfl, digit_ne (c := 116) hd rfl, digit_ne (c := 102) hd rfl,
        digit_ne (c := 45) hd rfl, hd, hread rest hs, Except.map]
  | string s =>
    obtain ⟨bs, hq, hread⟩ := stringTail_quote s
    rw [chars, hq, List.cons_append, scalarOr, skipBlanks_cons rfl]
    simp [hread rest, isDigit, Except.map]
  | array items => rw [depth] at hv; omega
  | object members => rw [depth] at hv; omega

/-- A written value reads back as itself. The fuel is counted in bytes. -/
theorem value_chars (depth : Nat) (v : Json) (hv : v.depth ≤ depth) (fuel : Nat)
    (hf : (encode v.chars).length < fuel) : ReadsAs (value fuel depth) v.chars v := by
  induction depth generalizing v with
  | zero => exact scalarOr_chars _ (Nat.le_zero.mp hv)
  | succ depth ih =>
    intro rest hs
    cases v with
    | array items =>
      have hdeep := depthItems_le_iff.mp (Nat.le_of_succ_le_succ hv)
      have hitems : ∀ w ∈ items, ReadsAs (value fuel depth) w.chars w := fun w hw =>
        ih w (hdeep w hw) (Nat.lt_trans (item_lt_array hw) hf)
      have hread := items_written chars (fun w _ => opens_chars w) hitems fuel
        (Nat.lt_trans (length_lt_array items) hf) rest
      rw [encode_array, charsItems_eq]
      exact value_eq_array.mpr ⟨_, skipBlanks_cons rfl _, hread⟩
    | object l =>
      have hdeep := depthMembers_le_iff.mp (Nat.le_of_succ_le_succ hv)
      have hmembers : ∀ p ∈ l, ReadsAs (value fuel depth) p.2.chars p.2 := fun p hp =>
        ih p.2 (hdeep p hp) (Nat.lt_trans (member_lt_object hp) hf)
      have hread := members_written chars hmembers fuel (Nat.lt_trans (length_lt_object l) hf) rest
      rw [encode_object, charsMembers_eq]
      exact value_eq_object.mpr ⟨_, skipBlanks_cons rfl _, hread⟩
    | _ => exact scalarOr_chars _ rfl rest hs

end RecordSearch.Json
