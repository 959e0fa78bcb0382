import RecordSearch.Proofs.Fields.Merge
import RecordSearch.Proofs.Json.Limit
import RecordSearch.Proofs.Record.RoundTrip
import RecordSearch.Store

/-!
# Submitted records in other texts

A submitted record stands in the text of an answer deeper than in the text it came
from. It is read there as it was if the reader may open as many arrays and
objects as it has within one another, and refused for its depth otherwise.
-/

namespace RecordSearch.Record

open Json (Reads Sinks TooDeep tooDeep_map)
open Utf8 (encode)

/-! ## Reading a record from its text -/

theorem depth_toJson_pos (r : Record) : 0 < r.toJson.depth := by
  simp [toJson, Json.depth]

theorem reader_reads {r : Record} (h : r.Kept) {fuel depth : Nat} (hd : r.toJson.depth ≤ depth)
    (hf : (encode r.toJson.chars).length < fuel) : Reads (reader fuel depth) r.toJson r := by
  intro rest hs
  obtain ⟨d, rfl⟩ : ∃ d, depth = d + 1 := ⟨depth - 1, by have := r.depth_toJson_pos; omega⟩
  have hread := Json.value_chars (d + 1) r.toJson hd fuel hf rest hs
  obtain ⟨u, hu, hmembers⟩ := Json.value_eq_object.mp hread
  exact reader_eq_ok.mpr ⟨u, _, hu, hmembers, (ofMembers_entries h).symm⟩

theorem reader_sinks {r : Record} {fuel depth : Nat} (hd : depth < r.toJson.depth)
    (hf : (encode r.toJson.chars).length < fuel) : Sinks (reader fuel depth) r.toJson := by
  intro rest hs
  have hsinks := Json.value_sinks depth r.toJson hd fuel hf rest hs
  cases depth with
  | zero =>
    rw [toJson, Json.encode_object]
    exact ⟨_, rfl, rfl⟩
  | succ depth =>
    have hvalues : FieldValue.reader fuel depth =
      Json.mapped FieldValue.ofJson (Json.value fuel depth) := rfl
    rw [toJson, Json.encode_object] at hsinks ⊢
    rw [reader, Json.mapOf, Json.opened_cons rfl, hvalues, Json.members_mapped]
    exact tooDeep_map.mpr (tooDeep_map.mpr (tooDeep_map.mp hsinks))

/-! ## Submitted records -/

/-- A record stored for the fields that a text begins with. -/
def Submitted (r : Record) : Prop :=
  ∃ s fields rest id, readFirst s = .ok (fields, rest) ∧ r = newSubmission id fields.entries

theorem mem_newSubmission {id : String} {fields : Record} {p : String × FieldValue}
    (h : p ∈ (newSubmission id fields.entries).entries) : p.2 = .text id ∨ p ∈ fields.entries := by
  obtain ⟨name, x⟩ := p
  rw [Fields.mem_entries, newSubmission, Fields.get?_insertAll_entries] at h
  cases hx : fields.get? name with
  | some y =>
    rw [hx] at h
    cases h
    exact .inr (Fields.mem_entries.mpr hx)
  | none =>
    rw [hx, Option.none_or, Fields.get?_insert] at h
    split at h
    · cases h
      exact .inl rfl
    · cases h

theorem Submitted.kept {r : Record} (h : r.Submitted) : r.Kept := by
  obtain ⟨s, fields, rest, id, hs, rfl⟩ := h
  obtain ⟨u, l, -, -, rfl⟩ := reader_eq_ok.mp hs
  intro p hp
  rcases mem_newSubmission hp with hid | hp
  · rw [hid]
    rfl
  · exact kept_ofMembers l p hp

theorem depth_of_readFirst {s rest : Bytes} {r : Record} (h : readFirst s = .ok (r, rest)) :
    r.toJson.depth ≤ Json.maxDepth := by
  obtain ⟨u, l, -, hl, rfl⟩ := reader_eq_ok.mp h
  have hdeep := Json.members_all (fun _ _ _ hv => Json.depth_le_of_value _ _ hv) hl
  apply depth_toJson_le_iff.mpr
  intro p hp
  exact Nat.le_trans (depth_value_le hp) (Json.depthMembers_le_iff.mpr hdeep)

theorem submitted_of_kept {fields : Record} (h : fields.Kept) (hd : fields.toJson.depth ≤ Json.maxDepth)
    (id : String) : (newSubmission id fields.entries).Submitted := by
  have hread := reader_reads h hd (Nat.lt_succ_self _) [] Text.stops_nil
  rw [List.append_nil] at hread
  exact ⟨_, fields, [], id, hread, rfl⟩

end RecordSearch.Record
