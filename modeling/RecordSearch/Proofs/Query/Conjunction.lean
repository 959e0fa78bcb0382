import RecordSearch.Proofs.Query.Joining
import RecordSearch.Store

/-!
# Queries as conjunctions

Filters for different fields select in any order and one after the other. So two
queries with a space between them select what the second selects of what the
first does (`evaluate_joined`).
-/

namespace RecordSearch

namespace Filters

theorem accepts_insertAll {f g : Filters} (h : ∀ field ∈ f.names, field ∉ g.names) (r : Record) :
    accepts (f.insertAll g.entries) r = (f.accepts r && g.accepts r) := by
  rw [accepts, Fields.entries_insertAll_disjoint h, List.all_append, accepts, accepts]

variable {α : Type} (record : α → Record)

theorem select_insertAll {f g : Filters} (h : ∀ field ∈ f.names, field ∉ g.names) (items : List α) :
    select record (f.insertAll g.entries) items =
      items.filter fun x => f.accepts (record x) && g.accepts (record x) := by
  apply List.filter_congr
  intro x _
  exact accepts_insertAll h (record x)

theorem select_select (f g : Filters) (items : List α) :
    g.select record (f.select record items) =
      items.filter fun x => f.accepts (record x) && g.accepts (record x) := by
  rw [select, select, List.filter_filter]
  apply List.filter_congr
  intro x _
  exact Bool.and_comm ..

end Filters

namespace Query

/-! ## The main statement -/

/-- The records that both queries accept, in their order and as often as they
are listed. -/
theorem evaluate_joined (records : List Record) (q₁ q₂ : String)
    (hfields : ∀ field ∈ (parse q₁).names, field ∉ (parse q₂).names)
    (hq : '"' ∉ q₁.toList ∨ '"' ∉ q₂.toList) :
    (parse (q₁ ++ " " ++ q₂)).evaluate records =
      (parse q₂).evaluate ((parse q₁).evaluate records) ∧
    (parse (q₁ ++ " " ++ q₂)).evaluate records = (parse (q₂ ++ " " ++ q₁)).evaluate records ∧
    (parse (q₁ ++ " " ++ q₂)).evaluate records =
      records.filter fun r => (parse q₁).accepts r && (parse q₂).accepts r := by
  have hjoined := Filters.select_insertAll id hfields records
  have hswapped := Filters.select_insertAll id (fun field h₂ h₁ => hfields field h₁ h₂) records
  rw [parse_space hq, parse_space hq.symm]
  refine ⟨?_, ?_, hjoined⟩
  · exact hjoined.trans (Filters.select_select id _ _ records).symm
  · refine hjoined.trans (Eq.trans ?_ hswapped.symm)
    apply List.filter_congr
    intro r _
    exact Bool.and_comm ..

theorem evaluate_joined_twice :
    (∀ field ∈ (parse "lastName:\"SMITH\" id:\"").names,
      field ∉ (parse "7 salary:0..60000 city:x").names) ∧
    '"' ∉ "7 salary:0..60000 city:x".toList ∧
    ((parse ("lastName:\"SMITH\" id:\"" ++ " " ++ "7 salary:0..60000 city:x")).evaluate
      (sampleRecords ++ Fields.empty :: sampleRecords)).map
        (fun r => (r.get? "id").bind FieldValue.asText?) = [some "2", some "2"] := by
  have hfields : ∀ field ∈ (parse "lastName:\"SMITH\" id:\"").names,
      field ∉ (parse "7 salary:0..60000 city:x").names := by decide +kernel
  have hq : '"' ∉ "7 salary:0..60000 city:x".toList := by decide
  obtain ⟨h, _⟩ := evaluate_joined (sampleRecords ++ Fields.empty :: sampleRecords)
    "lastName:\"SMITH\" id:\"" "7 salary:0..60000 city:x" hfields (.inr hq)
  rw [h]
  exact ⟨hfields, hq, by decide +kernel⟩

end Query

end RecordSearch
