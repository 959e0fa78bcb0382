import Mathlib
import RecordSearch.Proofs.Text.Percent
import RecordSearch.Proofs.Text.Validity
import RecordSearch.Text.Lowercase

/-!
# The case of ASCII letters

Texts that differ in the case of ASCII letters only have one lower-case form,
whatever stands around these letters. An ASCII text is lowered letter by letter,
and no character outside ASCII is lowered to an ASCII letter but to an i or a k.
-/

namespace RecordSearch.Text

/-! ## Letters -/

/-- The same character, but for the case of an ASCII letter. -/
inductive SameLetter : Char → Char → Prop
  | same (c : Char) : SameLetter c c
  | lowered {c : Char} : c.isUpper = true → SameLetter c c.toLower
  | raised {c : Char} : c.isUpper = true → SameLetter c.toLower c

theorem isAlpha_ascii {c : Char} (h : c.isAlpha = true) : c.toNat < 128 := by
  apply Percent.isAlphanum_ascii
  change (c.isAlpha || c.isDigit) = true
  rw [h, Bool.true_or]

theorem isAlpha_of_isUpper {c : Char} (h : c.isUpper = true) : c.isAlpha = true := by
  change (c.isUpper || c.isLower) = true
  rw [h, Bool.true_or]

theorem SameLetter.eq_or_letters {c d : Char} (h : SameLetter c d) :
    c = d ∨ c.isAlpha = true ∧ d.isAlpha = true ∧ c.toLower = d.toLower := by
  cases h with
  | same => exact .inl rfl
  | lowered hc =>
    have halpha := isAlpha_of_isUpper hc
    exact .inr ⟨halpha, (Char.isAlpha_toLower_eq_isAlpha c).trans halpha,
      (Char.toLower_toLower_eq_toLower c).symm⟩
  | raised hd =>
    have halpha := isAlpha_of_isUpper hd
    exact .inr ⟨(Char.isAlpha_toLower_eq_isAlpha d).trans halpha, halpha,
      Char.toLower_toLower_eq_toLower d⟩

theorem sameLetter_iff {c d : Char} : SameLetter c d ↔ c.toLower = d.toLower := by
  constructor
  · intro h
    rcases h.eq_or_letters with rfl | ⟨_, _, hl⟩
    · rfl
    · exact hl
  · intro h
    by_cases hc : c.isUpper = true
    · by_cases hd : d.isUpper = true
      · have hraised : c.toUpper = d.toUpper := by
          rw [← Char.toUpper_toLower_eq_toUpper, h, Char.toUpper_toLower_eq_toUpper]
        rw [Char.toUpper_eq_of_not_isLower (Char.not_isLower_of_isUpper hc),
          Char.toUpper_eq_of_not_isLower (Char.not_isLower_of_isUpper hd)] at hraised
        subst hraised
        exact .same c
      · rw [← Char.toLower_eq_of_not_isUpper hd, ← h]
        exact .lowered hc
    · rw [← Char.toLower_eq_of_not_isUpper hc, h]
      by_cases hd : d.isUpper = true
      · exact .raised hd
      · rw [Char.toLower_eq_of_not_isUpper hd]
        exact .same d

/-! ## Texts -/

/-- A text with the case of any of its ASCII letters changed. -/
def SameButCase (s t : String) : Prop := List.Forall₂ SameLetter s.toList t.toList

def IsAscii (s : String) : Prop := ∀ c ∈ s.toList, c.toNat < 128

theorem sameButCase_iff {s t : String} :
    SameButCase s t ↔ s.toList.map Char.toLower = t.toList.map Char.toLower := by
  have hsame : SameLetter = fun c d => c.toLower = d.toLower := by
    funext c d
    exact propext sameLetter_iff
  rw [SameButCase, hsame, ← List.forall₂_eq_eq_eq, List.forall₂_map_left_iff, List.forall₂_map_right_iff]

instance (s t : String) : Decidable (SameButCase s t) := decidable_of_iff _ sameButCase_iff.symm

instance (s : String) : Decidable (IsAscii s) :=
  decidable_of_iff (s.toList.all (fun c => c.toNat < 128) = true) (by simp [IsAscii])

/-! ## Around a letter -/

theorem letter_class {c : Char} (h : c.isAlpha = true) : isCased c = true ∧ isIgnorable c = false := by
  have hcodes : ∀ n < 128, (Char.ofNat n).isAlpha = true →
      isCased (Char.ofNat n) = true ∧ isIgnorable (Char.ofNat n) = false := by decide +kernel
  have hc := hcodes c.toNat (isAlpha_ascii h)
  rw [Char.ofNat_toNat] at hc
  exact hc h

theorem reachesLetter_cons (c : Char) (s : List Char) :
    reachesLetter (c :: s) = if isIgnorable c then reachesLetter s else isCased c := by
  unfold reachesLetter
  rw [List.dropWhile_cons]
  by_cases h : isIgnorable c = true <;> simp [h]

theorem reachesLetter_same {s t : List Char} (h : List.Forall₂ SameLetter s t) :
    reachesLetter s = reachesLetter t := by
  induction h with
  | nil => rfl
  | cons hc _ ih =>
    rw [reachesLetter_cons, reachesLetter_cons, ih]
    rcases hc.eq_or_letters with rfl | ⟨hl, hr, _⟩
    · rfl
    · simp [letter_class hl, letter_class hr]

theorem lowerAt_ascii (before : List Char) {c : Char} (after : List Char) (h : c.toNat < 128) :
    lowerAt before c after = [c.toLower] := by
  have hsigma : c ≠ 'Σ' := by rintro rfl; revert h; decide
  have hdotted : c ≠ 'İ' := by rintro rfl; revert h; decide
  rw [lowerAt, if_neg hsigma, if_neg hdotted, lowerChar, if_pos h]

theorem lowerAt_same {before before' after after' : List Char} {c d : Char}
    (hbefore : List.Forall₂ SameLetter before before') (hc : SameLetter c d)
    (hafter : List.Forall₂ SameLetter after after') : lowerAt before c after = lowerAt before' d after' := by
  rcases hc.eq_or_letters with rfl | ⟨hl, hr, hlower⟩
  · unfold lowerAt
    rw [reachesLetter_same hbefore, reachesLetter_same hafter]
  · rw [lowerAt_ascii _ _ (isAlpha_ascii hl), lowerAt_ascii _ _ (isAlpha_ascii hr), hlower]

/-! ## Lower-case forms -/

theorem lowerFrom_same {s t : List Char} (h : List.Forall₂ SameLetter s t) :
    ∀ {before before' : List Char} (acc : List Char), List.Forall₂ SameLetter before before' →
      lowerFrom before acc s = lowerFrom before' acc t := by
  induction h with
  | nil => intro _ _ _ _; rfl
  | cons hc hrest ih =>
    intro before before' acc hbefore
    rw [lowerFrom, lowerFrom, lowerAt_same hbefore hc hrest]
    exact ih _ (.cons hc hbefore)

theorem lowercase_same {s t : String} (h : SameButCase s t) : lowercase s = lowercase t := by
  rw [lowercase, lowercase, lowerFrom_same h [] .nil]

theorem lowerFrom_acc : ∀ (s before acc : List Char),
    lowerFrom before acc s = acc.reverse ++ lowerFrom before [] s
  | [], _, acc => by simp [lowerFrom]
  | c :: s, before, acc => by
    rw [lowerFrom, lowerFrom, lowerFrom_acc s, lowerFrom_acc s _ (_ ++ [])]
    simp

theorem lowerFrom_cons (before : List Char) (c : Char) (s : List Char) :
    lowerFrom before [] (c :: s) = lowerAt before c s ++ lowerFrom (c :: before) [] s := by
  rw [lowerFrom, lowerFrom_acc]
  simp

theorem lowerFrom_ascii : ∀ (s before : List Char), (∀ c ∈ s, c.toNat < 128) →
    lowerFrom before [] s = s.map Char.toLower
  | [], _, _ => rfl
  | c :: s, before, h => by
    rw [List.forall_mem_cons] at h
    rw [lowerFrom_cons, lowerAt_ascii _ _ h.1, lowerFrom_ascii s _ h.2]
    rfl

theorem lowercase_ascii {s : String} (h : IsAscii s) : (lowercase s).toList = s.toList.map Char.toLower := by
  rw [lowercase, String.toList_ofList, lowerFrom_ascii _ _ h]

theorem lowercase_eq_iff {s t : String} (hs : IsAscii s) (ht : IsAscii t) :
    lowercase s = lowercase t ↔ SameButCase t s := by
  rw [← String.toList_inj, lowercase_ascii hs, lowercase_ascii ht, sameButCase_iff]
  exact eq_comm

/-! ## Outside ASCII -/

theorem partner_proper : ∀ r ∈ lowerRanges, (128 ≤ r.partner ∨ r.first = r.last ∧ r.partner = 'k'.toNat) ∧
    (r.partner + (r.last - r.first) < 0xD800 ∨
      0xDFFF < r.partner ∧ r.partner + (r.last - r.first) < 0x110000) := by
  decide +kernel

theorem lowerChar_beyond {c : Char} (h : 128 ≤ c.toNat) : 128 ≤ (lowerChar c).toNat ∨ lowerChar c = 'k' := by
  rw [lowerChar, if_neg (Nat.not_lt.mpr h)]
  split
  · rename_i r hr
    obtain ⟨hpartner, hproper⟩ := partner_proper r (List.mem_of_find?_eq_some hr)
    have hcovers := List.find?_some hr
    simp only [CaseRange.covers, Bool.and_eq_true, decide_eq_true_eq] at hcovers
    obtain ⟨⟨hfirst, hlast⟩, _⟩ := hcovers
    unfold CaseRange.lower
    rcases hpartner with hp | ⟨hsingle, hp⟩
    · left
      rw [Utf8.toNat_ofNat (by omega)]
      omega
    · right
      rw [hp, show c.toNat - r.first = 0 by omega]
      rfl
  · exact .inl h

/-- Some character of the lower-case form of a character outside ASCII. -/
theorem lowerAt_beyond (before : List Char) {c : Char} (after : List Char) (h : 128 ≤ c.toNat) :
    ∃ d ∈ lowerAt before c after, 128 ≤ d.toNat ∨ d = 'i' ∨ d = 'k' := by
  unfold lowerAt
  split
  · split
    · exact ⟨'ς', List.mem_singleton_self _, by decide⟩
    · exact ⟨'σ', List.mem_singleton_self _, by decide⟩
  · split
    · exact ⟨'i', List.mem_cons_self .., by decide⟩
    · refine ⟨lowerChar c, List.mem_singleton_self _, ?_⟩
      rcases lowerChar_beyond h with hd | hd
      · exact .inl hd
      · exact .inr (.inr hd)

theorem exists_mem_lowerFrom : ∀ {s : List Char} (before : List Char) {c : Char}, c ∈ s → 128 ≤ c.toNat →
    ∃ d ∈ lowerFrom before [] s, 128 ≤ d.toNat ∨ d = 'i' ∨ d = 'k'
  | a :: s, before, c, hc, h => by
    rw [lowerFrom_cons]
    rcases List.mem_cons.mp hc with rfl | hc
    · obtain ⟨d, hd, hbeyond⟩ := lowerAt_beyond before s h
      exact ⟨d, List.mem_append_left _ hd, hbeyond⟩
    · obtain ⟨d, hd, hbeyond⟩ := exists_mem_lowerFrom (a :: before) hc h
      exact ⟨d, List.mem_append_right _ hd, hbeyond⟩

/-- Without an i and a k, a lower-case form is ASCII only if the text is. -/
theorem ascii_of_lowercase {s : String}
    (h : ∀ d ∈ (lowercase s).toList, d.toNat < 128 ∧ d ≠ 'i' ∧ d ≠ 'k') : IsAscii s := by
  intro c hc
  refine Nat.lt_of_not_le fun hbeyond => ?_
  obtain ⟨d, hd, hcases⟩ := exists_mem_lowerFrom [] hc hbeyond
  rw [← String.toList_ofList (l := lowerFrom [] [] s.toList), ← lowercase] at hd
  obtain ⟨hlow, hi, hk⟩ := h d hd
  rcases hcases with hd | hd | hd
  · omega
  · exact hi hd
  · exact hk hd

end RecordSearch.Text
