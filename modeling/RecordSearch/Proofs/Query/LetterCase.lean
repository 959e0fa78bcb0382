import RecordSearch.Proofs.Text.LetterCase
import RecordSearch.Query.Constraint

/-!
# Texts without regard to case

A constraint on a text does not see the case of ASCII letters, whatever stands
around them; of ASCII texts it sees all else: `text_ignores_case`.
-/

namespace RecordSearch.Constraint

open Text (SameButCase IsAscii)

/-- A constraint on texts and the text that it expects. -/
inductive Expects : Constraint → String → Prop
  | phrase (e : String) : Expects (.exactPhrase e) e
  | token (e : String) : Expects (.fieldMatch e) e

theorem Expects.admits_text {c : Constraint} {e : String} (h : c.Expects e) (a : String) :
    c.admits (some (.text a)) = (Text.lowercase a == Text.lowercase e) := by
  cases h <;> rfl

/-! ## The main statement -/

theorem text_ignores_case {c : Constraint} {e : String} (hc : c.Expects e) (a : String) :
    (∀ {c' : Constraint} {e' : String} (a' : String), c'.Expects e' → SameButCase e e' →
      SameButCase a a' → c.admits (some (.text a)) = c'.admits (some (.text a'))) ∧
    (IsAscii e → IsAscii a → (c.admits (some (.text a)) = true ↔ SameButCase e a)) := by
  constructor
  · intro c' e' a' hc' he ha
    rw [hc.admits_text, hc'.admits_text, Text.lowercase_same he, Text.lowercase_same ha]
  · intro he ha
    rw [hc.admits_text, beq_iff_eq, Text.lowercase_eq_iff ha he]

/-- A sigma ends the word in both texts, and before a letter it does not. -/
theorem text_ignores_case_sigma :
    (exactPhrase "oΣ.").Expects "oΣ." ∧ (fieldMatch "OΣ.").Expects "OΣ." ∧
    SameButCase "oΣ." "OΣ." ∧ SameButCase "Oς." "oς." ∧
    (fieldMatch "OΣ.").admits (some (.text "oς.")) = true ∧
    (fieldMatch "OΣ.K").admits (some (.text "oς.k")) = false ∧
    IsAscii "Ab-9" ∧ IsAscii "aB-9" ∧ (fieldMatch "Ab-9").admits (some (.text "aB-9")) = true := by
  have he : SameButCase "oΣ." "OΣ." := by decide
  have ha : SameButCase "Oς." "oς." := by decide
  have he' : SameButCase "OΣ.k" "OΣ.K" := by decide
  have ha' : SameButCase "oς.K" "oς.k" := by decide
  have hl : IsAscii "Ab-9" := by decide
  have hr : IsAscii "aB-9" := by decide
  have hword : (exactPhrase "oΣ.").admits (some (.text "Oς.")) = true := by decide +kernel
  have hletter : (fieldMatch "OΣ.k").admits (some (.text "oς.K")) = false := by decide +kernel
  refine ⟨.phrase _, .token _, he, ha, ?_, ?_, hl, hr, ?_⟩
  · rw [← (text_ignores_case (.phrase _) _).1 _ (.token _) he ha]
    exact hword
  · rw [← (text_ignores_case (.token _) _).1 _ (.token _) he' ha']
    exact hletter
  · exact ((text_ignores_case (.token _) _).2 hl hr).mpr (by decide)

end RecordSearch.Constraint
