import RecordSearch.Proofs.Json.Strings
import RecordSearch.Proofs.Text.Runs

/-!
# What words, numbers and strings take

Each reader takes bytes from the head of its input and reads the same from them
whatever follows. A number looks at one byte more, so what follows it has to
begin alike (`numeral_takes`).
-/

namespace RecordSearch.Json

open Text (isDigit digitsValue Stops stops_dropWhile takeWhile_run dropWhile_run)

/-- Other bytes that the next one does not tell apart from these. -/
def BeginAlike (t u : Bytes) : Prop := u.head? = t.head?

theorem BeginAlike.append {t u : Bytes} (h : BeginAlike t u) (w : Bytes) :
    BeginAlike (w ++ t) (w ++ u) := by
  cases w with
  | nil => exact h
  | cons b w => rfl

theorem BeginAlike.of_ne_nil {w t u : Bytes} (h : w ≠ []) : BeginAlike (w ++ t) (w ++ u) := by
  cases w with
  | nil => exact absurd rfl h
  | cons b w => rfl

theorem BeginAlike.stops {t u : Bytes} (h : BeginAlike t u) {p : UInt8 → Bool} (ht : Stops p t) :
    Stops p u := by
  intro b hb
  exact ht b (h ▸ hb)

theorem BeginAlike.eq_cons {b : UInt8} {t u : Bytes} (h : BeginAlike (b :: t) u) : ∃ v, u = b :: v := by
  cases u with
  | nil => cases h
  | cons c v =>
    cases h
    exact ⟨v, rfl⟩

/-! ## Blanks and words -/

theorem skipBlanks_takes {b : UInt8} {t : Bytes} : ∀ {s : Bytes}, skipBlanks s = b :: t →
    ∃ w, s = w ++ b :: t ∧ ∀ u, skipBlanks (w ++ b :: u) = b :: u
  | [], h => by cases h
  | c :: s, h => by
    rw [skipBlanks] at h
    split at h
    · rename_i hc
      obtain ⟨w, rfl, hw⟩ := skipBlanks_takes h
      refine ⟨c :: w, rfl, fun u => ?_⟩
      rw [List.cons_append, skipBlanks, if_pos hc]
      exact hw u
    · rename_i hc
      cases h
      refine ⟨[], rfl, fun u => ?_⟩
      rw [List.nil_append, skipBlanks, if_neg hc]

theorem word_takes : ∀ {cs : List Char} {s t : Bytes}, word cs s = .ok t →
    ∃ w, s = w ++ t ∧ ∀ u, word cs (w ++ u) = .ok u
  | [], s, t, h => by
    cases h
    exact ⟨[], rfl, fun u => rfl⟩
  | c :: cs, [], t, h => by cases h
  | c :: cs, b :: s, t, h => by
    rw [word] at h
    split at h
    · rename_i hb
      obtain ⟨w, rfl, hw⟩ := word_takes h
      refine ⟨b :: w, rfl, fun u => ?_⟩
      rw [List.cons_append, word, if_pos hb]
      exact hw u
    · cases h

/-! ## Numbers -/

/-- The digits at the head of the input are the same before bytes that begin alike. -/
theorem digits_take (s : Bytes) {u : Bytes} (h : BeginAlike (s.dropWhile isDigit) u) :
    (s.takeWhile isDigit ++ u).takeWhile isDigit = s.takeWhile isDigit ∧
      (s.takeWhile isDigit ++ u).dropWhile isDigit = u := by
  have hrun : ∀ b ∈ s.takeWhile isDigit, isDigit b = true := fun b hb => List.mem_takeWhile_imp hb
  have hstops := h.stops (stops_dropWhile isDigit s)
  exact ⟨takeWhile_run hrun hstops, dropWhile_run hrun hstops⟩

theorem wholePart_takes {s t whole : Bytes} (h : wholePart s = .ok (whole, t)) :
    ∃ b w, s = b :: (w ++ t) ∧ ∀ u, BeginAlike t u → wholePart (b :: (w ++ u)) = .ok (whole, u) := by
  unfold wholePart at h
  split at h
  · cases h
  rename_i b s
  split at h
  · rename_i hb
    split at h
    · rename_i c s
      split at h
      · cases h
      · rename_i hc
        cases h
        refine ⟨b, [], rfl, fun u hu => ?_⟩
        obtain ⟨v, rfl⟩ := hu.eq_cons
        simp only [wholePart, List.nil_append, if_pos hb, if_neg hc]
    · cases h
      refine ⟨b, [], rfl, fun u hu => ?_⟩
      cases u with
      | nil => simp only [wholePart, List.nil_append, if_pos hb]
      | cons c v => cases hu
  · rename_i hb
    split at h
    · rename_i hd
      cases h
      rw [List.takeWhile_cons_of_pos hd, List.dropWhile_cons_of_pos hd]
      refine ⟨b, s.takeWhile isDigit, by rw [List.takeWhile_append_dropWhile], fun u hu => ?_⟩
      obtain ⟨htake, hdrop⟩ := digits_take s hu
      simp only [wholePart, if_neg hb, if_pos hd, List.takeWhile_cons_of_pos hd, htake,
        List.dropWhile_cons_of_pos hd, hdrop]
    · cases h

theorem fractionPart_takes {s t : Bytes} {fraction : Option Bytes} (h : fractionPart s = .ok (fraction, t)) :
    ∃ w, s = w ++ t ∧ ∀ u, BeginAlike t u → fractionPart (w ++ u) = .ok (fraction, u) := by
  unfold fractionPart at h
  split at h
  · rename_i s
    split at h
    · split at h <;> cases h
    · rename_i ds hds
      cases h
      refine ⟨46 :: s.takeWhile isDigit, ?_, fun u hu => ?_⟩
      · rw [List.cons_append, List.takeWhile_append_dropWhile]
      · obtain ⟨htake, hdrop⟩ := digits_take s hu
        simp only [List.cons_append, fractionPart, htake, hdrop]
  · rename_i hpoint
    cases h
    refine ⟨[], rfl, fun u hu => ?_⟩
    unfold fractionPart
    split
    · rename_i v hv
      rw [List.nil_append] at hv
      subst hv
      cases s with
      | nil => cases hu
      | cons b s =>
        cases hu
        exact absurd rfl (hpoint s)
    · rfl

theorem signPart_takes {s v : Bytes} {negative : Bool} {c : UInt8}
    (h : signPart s = (negative, c :: v)) :
    ∃ w, s = w ++ c :: v ∧ ∀ u, signPart (w ++ c :: u) = (negative, c :: u) := by
  unfold signPart at h
  split at h
  · cases h
    exact ⟨[43], rfl, fun u => rfl⟩
  · cases h
    exact ⟨[45], rfl, fun u => rfl⟩
  · rename_i hplus hminus
    cases h
    refine ⟨[], rfl, fun u => ?_⟩
    unfold signPart
    split
    · rename_i he
      cases he
      exact absurd rfl (hplus v)
    · rename_i he
      cases he
      exact absurd rfl (hminus v)
    · rfl

theorem exponentPart_takes {s t : Bytes} {exponent : Option Exponent}
    (h : exponentPart s = .ok (exponent, t)) :
    ∃ w, s = w ++ t ∧ ∀ u, BeginAlike t u → exponentPart (w ++ u) = .ok (exponent, u) := by
  unfold exponentPart at h
  split at h
  · rename_i b s
    split at h
    · rename_i hb
      rcases hsign : signPart s with ⟨negative, r⟩
      simp only [hsign] at h
      split at h
      · cases h
      · rename_i c v
        split at h
        · rename_i hc
          cases h
          obtain ⟨w, rfl, hw⟩ := signPart_takes hsign
          rw [List.takeWhile_cons_of_pos hc, List.dropWhile_cons_of_pos hc]
          refine ⟨b :: (w ++ c :: v.takeWhile isDigit), by simp [List.takeWhile_append_dropWhile],
            fun u hu => ?_⟩
          obtain ⟨htake, hdrop⟩ := digits_take v hu
          simp only [List.cons_append, List.append_assoc, exponentPart, if_pos hb, hw, if_pos hc,
            List.takeWhile_cons_of_pos hc, htake, List.dropWhile_cons_of_pos hc, hdrop]
        · cases h
    · rename_i hb
      cases h
      refine ⟨[], rfl, fun u hu => ?_⟩
      obtain ⟨v, rfl⟩ := hu.eq_cons
      simp only [List.nil_append, exponentPart, if_neg hb]
  · cases h
    refine ⟨[], rfl, fun u hu => ?_⟩
    cases u with
    | nil => rfl
    | cons c v => cases hu

theorem realNumber_takes {negative : Bool} {whole fraction s t : Bytes} {exponent : Option Exponent}
    {n : Number} (h : realNumber negative whole fraction exponent s = .ok (n, t)) :
    s = t ∧ ∀ u, realNumber negative whole fraction exponent u = .ok (n, u) := by
  unfold realNumber at h
  simp only at h
  split at h
  · rename_i x hx
    cases h
    refine ⟨rfl, fun u => ?_⟩
    simp only [realNumber, hx]
  · split at h <;> cases h

/-- The number of three parts, before the bytes after it. -/
def numberOf (negative : Bool) (whole : Bytes) (fraction : Option Bytes) (exponent : Option Exponent)
    (s : Bytes) : Outcome Number :=
  if fraction.isNone && exponent.isNone then
    match wholeNumber? negative (digitsValue whole) with
    | some n => .ok (n, s)
    | none => realNumber negative whole [] none s
  else realNumber negative whole (fraction.getD []) exponent s

theorem numberOf_takes {negative : Bool} {whole s t : Bytes} {fraction : Option Bytes}
    {exponent : Option Exponent} {n : Number} (h : numberOf negative whole fraction exponent s = .ok (n, t)) :
    s = t ∧ ∀ u, numberOf negative whole fraction exponent u = .ok (n, u) := by
  unfold numberOf at h ⊢
  split at h
  · rename_i hinteger
    simp only [if_pos hinteger]
    split at h
    · cases h
      exact ⟨rfl, fun u => rfl⟩
    · exact realNumber_takes h
  · rename_i hinteger
    simp only [if_neg hinteger]
    exact realNumber_takes h

theorem numeral_of_parts {negative : Bool} {s r r' t whole : Bytes} {fraction : Option Bytes}
    {exponent : Option Exponent} (hwhole : wholePart s = .ok (whole, r))
    (hfraction : fractionPart r = .ok (fraction, r')) (hexponent : exponentPart r' = .ok (exponent, t)) :
    numeral negative s = numberOf negative whole fraction exponent t := by
  simp only [numeral, hwhole, hfraction, hexponent]
  rfl

theorem numeral_takes {negative : Bool} {s t : Bytes} {n : Number} (h : numeral negative s = .ok (n, t)) :
    ∃ b w, s = b :: (w ++ t) ∧ ∀ u, BeginAlike t u → numeral negative (b :: (w ++ u)) = .ok (n, u) := by
  have hparts := h
  unfold numeral at hparts
  split at hparts
  · cases hparts
  rename_i whole r hwhole
  split at hparts
  · cases hparts
  rename_i fraction r' hfraction
  split at hparts
  · cases hparts
  rename_i exponent r'' hexponent
  rw [numeral_of_parts hwhole hfraction hexponent] at h
  obtain ⟨rfl, hnumber⟩ := numberOf_takes h
  obtain ⟨b, w, rfl, hw⟩ := wholePart_takes hwhole
  obtain ⟨w', rfl, hw'⟩ := fractionPart_takes hfraction
  obtain ⟨w'', rfl, hw''⟩ := exponentPart_takes hexponent
  refine ⟨b, w ++ (w' ++ w''), by simp only [List.append_assoc], fun u hu => ?_⟩
  simp only [List.append_assoc]
  rw [numeral_of_parts (hw _ ((hu.append w'').append w')) (hw' _ (hu.append w'')) (hw'' u hu)]
  exact hnumber u

/-! ## Strings -/

theorem hexFour_takes {s t : Bytes} {n : Nat} (h : hexFour s = .ok (n, t)) :
    ∃ w, s = w ++ t ∧ ∀ u, hexFour (w ++ u) = .ok (n, u) := by
  unfold hexFour at h
  split at h
  · rename_i a b c d s
    split at h
    · rename_i ha hb hc hd
      cases h
      refine ⟨[a, b, c, d], rfl, fun u => ?_⟩
      simp only [List.cons_append, List.nil_append, hexFour, ha, hb, hc, hd]
    · cases h
  · cases h

theorem unicodeEscape_takes {s t : Bytes} {c : Char} (h : unicodeEscape s = .ok (c, t)) :
    ∃ w, s = w ++ t ∧ ∀ u, unicodeEscape (w ++ u) = .ok (c, u) := by
  unfold unicodeEscape at h
  split at h
  · cases h
  rename_i n r hn
  obtain ⟨w, rfl, hw⟩ := hexFour_takes hn
  split at h
  · cases h
  rename_i hlow
  split at h
  · rename_i hhigh
    split at h
    · cases h
    · split at h
      · cases h
      · split at h
        · cases h
        rename_i m r' hm
        obtain ⟨w', rfl, hw'⟩ := hexFour_takes hm
        split at h
        · rename_i hpair
          obtain ⟨rfl, rfl⟩ := Prod.mk.inj (Except.ok.inj h)
          refine ⟨w ++ 92 :: 117 :: w', by simp, fun u => ?_⟩
          rw [List.append_assoc]
          unfold unicodeEscape
          rw [hw]
          simp only [List.cons_append, if_neg hlow, if_pos hhigh, hw', if_pos hpair]
        · cases h
      · cases h
    · cases h
  · rename_i hhigh
    cases h
    refine ⟨w, rfl, fun u => ?_⟩
    simp only [unicodeEscape, hw, if_neg hlow, if_neg hhigh]

theorem escape_takes {s t : Bytes} {c : Char} (h : escape s = .ok (c, t)) :
    ∃ w, s = w ++ t ∧ ∀ u, escape (w ++ u) = .ok (c, u) := by
  unfold escape at h
  split at h
  · cases h
  · cases h
    exact ⟨[34], rfl, fun u => rfl⟩
  · cases h
    exact ⟨[92], rfl, fun u => rfl⟩
  · cases h
    exact ⟨[47], rfl, fun u => rfl⟩
  · cases h
    exact ⟨[98], rfl, fun u => rfl⟩
  · cases h
    exact ⟨[102], rfl, fun u => rfl⟩
  · cases h
    exact ⟨[110], rfl, fun u => rfl⟩
  · cases h
    exact ⟨[114], rfl, fun u => rfl⟩
  · cases h
    exact ⟨[116], rfl, fun u => rfl⟩
  · obtain ⟨w, rfl, hw⟩ := unicodeEscape_takes h
    exact ⟨117 :: w, rfl, hw⟩
  · cases h

theorem stringFrom_takes {whole acc s t : Bytes} {text : String} (h : stringFrom whole acc s = .ok (text, t)) :
    ∃ w, s = w ++ t ∧ ∀ whole u, stringFrom whole acc (w ++ u) = .ok (text, u) := by
  unfold stringFrom at h
  split at h
  · cases h
  rename_i b s
  split at h
  · rename_i hb
    subst hb
    split at h
    · rename_i hbytes
      cases h
      exact ⟨[34], rfl, fun whole u => stringFrom_close whole acc u hbytes⟩
    · cases h
  split at h
  · rename_i hb
    subst hb
    split at h
    · cases h
    · rename_i c r hc
      obtain ⟨w, hs, hw⟩ := escape_takes hc
      have hshorter := escape_length hc
      obtain ⟨w', hr, hw'⟩ := stringFrom_takes h
      refine ⟨92 :: (w ++ w'), by rw [hs, hr]; simp, fun whole u => ?_⟩
      have hc' : escape (w ++ w' ++ u) = .ok (c, w' ++ u) := by rw [List.append_assoc, hw]
      rw [List.cons_append, stringFrom_escape whole acc hc']
      exact hw' whole u
  split at h
  · cases h
  · rename_i hquote hescape hcontrol
    obtain ⟨w, hs, hw⟩ := stringFrom_takes h
    refine ⟨b :: w, by rw [hs]; rfl, fun whole u => ?_⟩
    have hplain : ∀ c ∈ [b], c ≠ 34 ∧ c ≠ 92 ∧ ¬ c < 32 := by
      intro c hc
      cases List.mem_singleton.mp hc
      exact ⟨hquote, hescape, hcontrol⟩
    exact (stringFrom_plain whole acc (w ++ u) [b] hplain).trans (hw whole u)
termination_by s.length

theorem stringTail_takes {s t : Bytes} {text : String} (h : stringTail s = .ok (text, t)) :
    ∃ w, s = w ++ t ∧ ∀ u, stringTail (w ++ u) = .ok (text, u) := by
  obtain ⟨w, hs, hw⟩ := stringFrom_takes h
  exact ⟨w, hs, fun u => hw _ u⟩

end RecordSearch.Json
