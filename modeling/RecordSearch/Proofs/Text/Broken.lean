import RecordSearch.Proofs.Text.Validity

/-!
# Bytes that stop being UTF-8

Where reading stops, the bytes either end within a character, so that more bytes
can complete it, or hold a sequence that nothing can mend. That sequence has one
byte at least, and otherwise all the bytes that could still have begun a character.
-/

namespace RecordSearch.Utf8

/-! ## Where no character starts -/

/-- The least bytes that may follow a first byte. -/
def leastTail (b : UInt8) : Bytes := [(secondRange b).1, 0x80, 0x80].take (width b - 1)

theorem least_second (b : UInt8) : isTail (secondRange b).1 = true ∧
    ((secondRange b).1 ≤ (secondRange b).1 && (secondRange b).1 ≤ (secondRange b).2) = true := by
  unfold secondRange
  repeat' split
  all_goals decide

section
variable {b : UInt8} {t rest : Bytes} {n : Nat}

/-- What the input ends within can be completed. -/
theorem start_completed (h : start b t = .cut) :
    ∃ c, start b (t ++ (leastTail b).drop t.length) = .char c [] := by
  obtain ⟨htail, hsecond⟩ := least_second b
  have hlast : isTail 0x80 = true := rfl
  unfold start at h
  repeat' split at h
  all_goals cases h
  -- the bytes that are there have been looked at, those that are missing are the least ones
  all_goals
    simp only [start, leastTail, Nat.reduceSub, List.take_succ_cons, List.take_zero, List.length_cons,
      List.length_nil, List.drop_succ_cons, List.drop_zero, List.nil_append, List.cons_append, if_true, *]
    exact ⟨_, rfl⟩

/-- What is bad stays so, whatever follows. -/
theorem start_bad_append (h : start b t = .bad n rest) (u : Bytes) :
    start b (t ++ u) = .bad n (rest ++ u) := by
  unfold start at h
  repeat' split at h
  all_goals cases h
  all_goals simp only [start, List.cons_append, if_true, if_false, Bool.false_eq_true, *]

/-- The bytes of a bad sequence after its first could have gone on, and the one behind them
could not. -/
theorem start_bad_bounds (h : start b t = .bad n rest) :
    (1 ≤ n ∧ n ≤ 3 ∧ n ≤ t.length + 1) ∧ (n ≠ 1 → start b (t.take (n - 1)) = .cut) ∧
      ∃ r, start b (t.take n) = .bad n r := by
  unfold start at h
  repeat' split at h
  all_goals cases h
  all_goals simp [start, *]

end

/-! ## Whole inputs -/

/-- Some bytes behind these make them valid. -/
def Begins (s : Bytes) : Prop := ∃ u, Valid (s ++ u)

/-- The bytes from `v` on are bad, `n` of them: more than one only if they could have gone on
as a character, and with the next byte they could not. -/
structure BadAt (s : Bytes) (v n : Nat) : Prop where
  positive : 1 ≤ n
  atMost : n ≤ 3
  within : v + n ≤ s.length
  begins : n ≠ 1 → Begins (s.take (v + n))
  breaks : ¬ Begins (s.take (v + n + 1))

section
variable (cs : List Char) {b : UInt8} {t rest : Bytes} {n : Nat}

theorem begins_of_cut (h : start b t = .cut) : Begins (encode cs ++ b :: t) := by
  obtain ⟨c, hc⟩ := start_completed h
  obtain ⟨hbytes, -⟩ := bytes_of_start hc
  refine ⟨(leastTail b).drop t.length, cs ++ [c], ?_⟩
  rw [List.append_assoc, List.cons_append, hbytes, encode_append]
  rfl

theorem not_begins_of_bad (h : start b t = .bad n rest) : ¬ Begins (encode cs ++ b :: t) := by
  intro hb
  obtain ⟨u, hu⟩ := hb
  have hstuck : ∀ c r, start b (t ++ u) ≠ .char c r := by
    intro c r hc
    rw [start_bad_append h] at hc
    cases hc
  rw [List.append_assoc, List.cons_append] at hu
  exact (longestValid_of_stuck hstuck).1 hu

theorem take_past (k : Nat) :
    (encode cs ++ b :: t).take ((encode cs).length + (k + 1)) = encode cs ++ b :: t.take k := by
  rw [List.take_length_add_append, List.take_succ_cons]

theorem badAt_of_bad (h : start b t = .bad n rest) : BadAt (encode cs ++ b :: t) (encode cs).length n := by
  obtain ⟨⟨hpos, hmost, hwithin⟩, hbegins, r, hbreaks⟩ := start_bad_bounds h
  refine ⟨hpos, hmost, ?_, ?_, ?_⟩
  · rw [List.length_append, List.length_cons]
    omega
  · intro hn
    have htake := take_past cs (b := b) (t := t) (n - 1)
    rw [Nat.sub_add_cancel hpos] at htake
    rw [htake]
    exact begins_of_cut cs (hbegins hn)
  · rw [Nat.add_assoc, take_past]
    exact not_begins_of_bad cs hbreaks

end

/-! ## What is reported -/

theorem toString?_eq_ok {s : Bytes} {t : String} : toString? s = .ok t ↔ ofString t = s := by
  constructor
  · intro h
    rcases toString?_cases s with ⟨_, -, cs, rfl⟩ | ⟨e, he, -⟩
    · rw [toString?_encode] at h
      cases h
      rw [ofString, String.toList_ofList]
    · rw [h] at he
      cases he
  · intro h
    rw [← h, ofString, toString?_encode, String.ofList_toList]

/-- A fault names the longest valid beginning, and tells bytes that can be completed from
bytes that hold a bad sequence. -/
theorem toString?_fault {s : Bytes} (h : ¬ Valid s) : ∃ e, toString? s = .error e ∧
    LongestValid s e.validUpTo ∧ (e.badCount = none ∧ Begins s ∨
      ∃ n, e.badCount = some n ∧ ¬ Begins s ∧ BadAt s e.validUpTo n) := by
  rcases toString?_stops s with ⟨_, -, hv⟩ | ⟨e, cs, b, t, he, rfl, hlength, hreports⟩
  · exact absurd hv h
  · refine ⟨e, he, hlength ▸ (longestValid_of_stuck hreports.stuck).2, ?_⟩
    cases hstart : start b t with
    | char c rest => exact absurd hstart (hreports.stuck c rest)
    | cut =>
      rw [hstart] at hreports
      exact .inl ⟨hreports, begins_of_cut cs hstart⟩
    | bad n rest =>
      rw [hstart] at hreports
      exact .inr ⟨n, hreports, not_begins_of_bad cs hstart, hlength ▸ badAt_of_bad cs hstart⟩

end RecordSearch.Utf8
