import RecordSearch.Proofs.Json.Depth
import RecordSearch.Proofs.Json.Members
import RecordSearch.Proofs.Json.Prefix
import RecordSearch.Record

/-!
# A record is an object

`read_eq_ok`: a text reads as a record if and only if it is a JSON object, and
the record takes the members of the object in their order. A submitted body need
only begin with such a text (`readFirst_eq_ok`).
-/

namespace RecordSearch

namespace Record

open Json (mapValues mapped members_mapped mapOf_eq_ok parse_eq_object complete_eq_ok map_eq_ok)

/-- The record of the members of an object. -/
def ofMembers (l : List (String × Json)) : Record := Fields.ofList (mapValues FieldValue.ofJson l)

theorem reader_eq_ok {fuel depth : Nat} {s t : Bytes} {r : Record} :
    reader fuel (depth + 1) s = .ok (r, t) ↔ ∃ u l, Json.skipBlanks s = 123 :: u ∧
      Json.members (Json.value fuel depth) fuel u = .ok (l, t) ∧ r = ofMembers l := by
  have hvalues : FieldValue.reader fuel depth = mapped FieldValue.ofJson (Json.value fuel depth) := rfl
  constructor
  · intro h
    obtain ⟨⟨fs, t'⟩, hmap, he⟩ := map_eq_ok h
    cases he
    obtain ⟨u, hs, hu⟩ := mapOf_eq_ok.mp hmap
    rw [hvalues, members_mapped] at hu
    obtain ⟨⟨l, t''⟩, hl, he⟩ := map_eq_ok hu
    cases he
    exact ⟨u, l, hs, hl, rfl⟩
  · intro h
    obtain ⟨u, l, hs, hl, rfl⟩ := h
    have hu : Json.members (FieldValue.reader fuel depth) fuel u =
        .ok (mapValues FieldValue.ofJson l, t) := by rw [hvalues, members_mapped, hl]; rfl
    rw [reader, mapOf_eq_ok.mpr ⟨u, hs, hu⟩]
    rfl

/-- A text reads as a record if and only if it holds an object, and the record
is that of its members. -/
theorem read_eq_ok {s : Bytes} {r : Record} :
    read s = .ok r ↔ ∃ l, Json.parse s = .ok (.object l) ∧ r = ofMembers l := by
  rw [read, complete_eq_ok]
  constructor
  · intro h
    obtain ⟨t, h, ht⟩ := h
    obtain ⟨u, l, hs, hl, rfl⟩ := reader_eq_ok.mp h
    exact ⟨l, parse_eq_object.mpr ⟨u, t, hs, hl, ht⟩, rfl⟩
  · intro h
    obtain ⟨l, h, rfl⟩ := h
    obtain ⟨u, t, hs, hl, ht⟩ := parse_eq_object.mp h
    exact ⟨t, reader_eq_ok.mpr ⟨u, l, hs, hl, rfl⟩, ht⟩

/-- Reading takes what the object takes, so it makes no difference what follows. -/
theorem readFirst_eq_ok {s : Bytes} {r : Record} :
    (∃ rest, readFirst s = .ok (r, rest)) ↔ ∃ text rest, s = text ++ rest ∧ read text = .ok r := by
  constructor
  · intro h
    obtain ⟨rest, h⟩ := h
    obtain ⟨u, l, hu, hl, rfl⟩ := reader_eq_ok.mp h
    obtain ⟨w, rfl, hw⟩ := Json.skipBlanks_takes hu
    obtain ⟨v, rfl, hv⟩ := Json.members_take (Json.value_local 126) hl
    refine ⟨w ++ 123 :: v, rest, by simp, ?_⟩
    have hfuel : v.length ≤ Json.fuelFor (w ++ 123 :: v) := by
      simp only [Json.fuelFor, List.length_append, List.length_cons]
      omega
    have hmembers := hv (u := []) hfuel
    rw [List.append_nil] at hmembers
    exact complete_eq_ok.mpr ⟨[], reader_eq_ok.mpr ⟨v, l, hw v, hmembers, rfl⟩, rfl⟩
  · intro h
    obtain ⟨text, rest, rfl, h⟩ := h
    obtain ⟨t, h, -⟩ := complete_eq_ok.mp h
    obtain ⟨u, l, hu, hl, rfl⟩ := reader_eq_ok.mp h
    obtain ⟨w, rfl, hw⟩ := Json.skipBlanks_takes hu
    obtain ⟨v, rfl, hv⟩ := Json.members_take (Json.value_local 126) hl
    refine ⟨t ++ rest, ?_⟩
    rw [List.append_assoc, List.cons_append, List.append_assoc]
    have hfuel : v.length ≤ Json.fuelFor (w ++ 123 :: (v ++ (t ++ rest))) := by
      simp only [Json.fuelFor, List.length_append, List.length_cons]
      omega
    exact reader_eq_ok.mpr ⟨_, l, hw _, hv hfuel, rfl⟩

end Record

end RecordSearch
