import RecordSearch.Proofs.Text.Broken
import RecordSearch.Upload.Extract

/-!
# Plain text

A file of plain text is its bytes read as UTF-8. If they are not, the error says
after how many good bytes, and whether more bytes could complete them or which
bytes are bad: `extractText_decided`.
-/

namespace RecordSearch

open Utf8 (ofString LongestValid Begins BadAt)

theorem extractText_eq_ok {s : Bytes} {t : String} : extractText s = .ok t ↔ ofString t = s := by
  rw [← Utf8.toString?_eq_ok, extractText]
  split
  · rename_i u hu
    rw [hu, Except.ok.injEq, Except.ok.injEq]
  · rename_i e he
    rw [he]
    constructor <;> intro h <;> cases h

theorem not_valid_of_ne {s : Bytes} (h : ∀ t, ofString t ≠ s) : ¬ Utf8.Valid s := by
  intro hv
  obtain ⟨cs, hcs⟩ := hv
  refine h (String.ofList cs) ?_
  rw [ofString, String.toList_ofList, hcs]

/-- Extraction gives exactly the text that the bytes encode. Otherwise it names the longest
valid beginning, as incomplete if more bytes could make the input valid, and else with the
number of bad bytes after it. -/
theorem extractText_decided (s : Bytes) :
    (∀ t, extractText s = .ok t ↔ ofString t = s) ∧
    ((∀ t, ofString t ≠ s) → ∃ e, extractText s = .error (.utf8 e) ∧
      (ExtractError.utf8 e).message = s!"File is not valid UTF-8: {e.message}" ∧
      LongestValid s e.validUpTo ∧
      (e.badCount = none ∧ Begins s ∧
          e.message = s!"incomplete utf-8 byte sequence from index {e.validUpTo}" ∨
        ∃ n, e.badCount = some n ∧ ¬ Begins s ∧ BadAt s e.validUpTo n ∧
          e.message = s!"invalid utf-8 sequence of {n} bytes from index {e.validUpTo}")) := by
  refine ⟨fun t => extractText_eq_ok, fun h => ?_⟩
  obtain ⟨e, he, hlongest, hcases⟩ := Utf8.toString?_fault (not_valid_of_ne h)
  refine ⟨e, by rw [extractText, he], rfl, hlongest, ?_⟩
  rcases hcases with ⟨hnone, hbegins⟩ | ⟨n, hsome, hbegins, hbad⟩
  · refine .inl ⟨hnone, hbegins, ?_⟩
    unfold Utf8.Fault.message
    rw [hnone]
  · refine .inr ⟨n, hsome, hbegins, hbad, ?_⟩
    unfold Utf8.Fault.message
    rw [hsome]

/-- A letter, and three of the four bytes of another one before an ASCII letter. -/
def interruptedBytes : Bytes := [0xC3, 0xA9, 0xF0, 0x9F, 0x98, 0x41]

theorem extractText_decided_interrupted : (∀ t, ofString t ≠ interruptedBytes) ∧
    extractText interruptedBytes = .error (.utf8 ⟨2, some 3⟩) ∧ LongestValid interruptedBytes 2 ∧
    BadAt interruptedBytes 2 3 := by
  have hrun : (match extractText interruptedBytes with
      | .error (.utf8 e) => some e
      | _ => none) = some ⟨2, some 3⟩ := by decide +kernel
  have hne : ∀ t, ofString t ≠ interruptedBytes := by
    intro t ht
    rw [extractText_eq_ok.mpr ht] at hrun
    cases hrun
  obtain ⟨e, he, -, hlongest, hcases⟩ := (extractText_decided interruptedBytes).2 hne
  rw [he] at hrun
  cases hrun
  rcases hcases with ⟨h, -⟩ | ⟨n, h, -, hbad, -⟩
  · cases h
  · cases h
    exact ⟨hne, he, hlongest, hbad⟩

end RecordSearch
