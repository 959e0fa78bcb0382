import RecordSearch.Proofs.Fields.Order
import RecordSearch.Proofs.Json.RoundTrip
import RecordSearch.Proofs.Json.Settled
import RecordSearch.Proofs.Record.Reading

/-!
# Records written and read

A field is kept as what its value in the text is: a text, a number, or anything
else with its members settled. What is kept is written as a value that is kept
in the same way, so a record is read back from its text as it was.
-/

namespace RecordSearch

open Json (mapValues)

/-! ## Values -/

inductive Json.IsPlain : Json → Prop
  | string (s : String) : IsPlain (.string s)
  | number (n : Number) : IsPlain (.number n)

namespace FieldValue

/-- How a value of a text is kept as the value of a field. -/
structure Keeps (v : Json) (x : FieldValue) : Prop where
  text : ∀ s, x = .text s ↔ v = .string s
  number : ∀ n, x = .number n ↔ v = .number n
  other : ∀ w, x = .other w ↔ ¬ v.IsPlain ∧ w = v.settle
  rest : ∀ w, x = .other w → ¬ w.IsPlain

theorem settle_isPlain {v : Json} (h : v.settle.IsPlain) : v.IsPlain := by
  cases v with
  | string s => exact .string s
  | number n => exact .number n
  | _ => cases h

theorem ofJson_of_not_isPlain {v : Json} (h : ¬ v.IsPlain) : ofJson v = .other v.settle := by
  cases v with
  | string s => exact absurd (.string s) h
  | number n => exact absurd (.number n) h
  | _ => rfl

theorem keeps_ofJson (v : Json) : Keeps v (ofJson v) := by
  by_cases h : v.IsPlain
  · cases h with
    | string s => exact ⟨fun _ => by simp [ofJson], fun _ => by simp [ofJson],
        fun _ => by simp [ofJson, Json.IsPlain.string], fun _ e => by cases e⟩
    | number n => exact ⟨fun _ => by simp [ofJson], fun _ => by simp [ofJson],
        fun _ => by simp [ofJson, Json.IsPlain.number], fun _ e => by cases e⟩
  · rw [ofJson_of_not_isPlain h]
    refine ⟨fun s => ⟨(by cases ·), fun e => ?_⟩, fun n => ⟨(by cases ·), fun e => ?_⟩,
      fun w => ⟨fun e => ?_, fun e => ?_⟩, fun w e => ?_⟩
    · exact absurd (e ▸ .string s) h
    · exact absurd (e ▸ .number n) h
    · cases e; exact ⟨h, rfl⟩
    · rw [e.2]
    · cases e; exact fun hw => h (settle_isPlain hw)

theorem Keeps.eq {v : Json} {x : FieldValue} (h : Keeps v x) : x = ofJson v := by
  cases x with
  | text s => rw [(h.text s).mp rfl, ofJson]
  | number n => rw [(h.number n).mp rfl, ofJson]
  | other w =>
    obtain ⟨hv, hw⟩ := (h.other w).mp rfl
    rw [ofJson_of_not_isPlain hv, hw]

theorem toJson_ofJson (v : Json) : (ofJson v).toJson = v.settle := by cases v <;> rfl

theorem ofJson_settle (v : Json) : ofJson v.settle = ofJson v := by
  by_cases h : v.IsPlain
  · cases h <;> rfl
  · rw [ofJson_of_not_isPlain h, ofJson_of_not_isPlain fun hw => h (settle_isPlain hw),
      Json.settle_settle]

end FieldValue

/-! ## Texts -/

theorem Json.parse_text {v : Json} (h : v.depth ≤ Json.maxDepth) :
    Json.parse (Utf8.ofString v.text) = .ok v := by
  have hbytes : Utf8.ofString v.text = Utf8.encode v.chars := by
    rw [Utf8.ofString, Json.text, String.toList_ofList]
  have hread := Json.value_chars Json.maxDepth v h (Json.fuelFor (Utf8.encode v.chars))
    (Nat.lt_succ_self _) [] Text.stops_nil
  rw [List.append_nil] at hread
  rw [hbytes, Json.parse, hread]
  rfl

namespace Record

theorem depth_of_parse {s : Bytes} {v : Json} (h : Json.parse s = .ok v) : v.depth ≤ Json.maxDepth := by
  obtain ⟨t, ht, -⟩ := Json.complete_eq_ok.mp h
  exact Json.depth_le_of_value _ _ ht

theorem lastValue?_mapValues {α β : Type} (f : α → β) (l : List (String × α)) (name : String) :
    lastValue? (mapValues f l) name = (lastValue? l name).map f := by
  rw [lastValue?, lastValue?, mapValues, ← List.map_reverse, List.find?_map, Option.map_map,
    Option.map_map]
  rfl

theorem mem_ofMembers {l : List (String × Json)} {name : String} {x : FieldValue}
    (h : (name, x) ∈ (ofMembers l).entries) :
    ∃ v, lastValue? l name = some v ∧ x = FieldValue.ofJson v := by
  have hget := Fields.mem_entries.mp h
  rw [ofMembers, Fields.get?_ofList, lastValue?_mapValues] at hget
  obtain ⟨v, hv, hx⟩ := Option.map_eq_some_iff.mp hget
  exact ⟨v, hv, hx.symm⟩

theorem names_ofMembers (l : List (String × Json)) :
    (ofMembers l).names = (l.map Prod.fst).eraseDups := by
  rw [ofMembers, Fields.names_ofList, mapValues, List.map_map]
  rfl

/-! ## The round trip -/

/-- Every value is one that its own text would be kept as. -/
def Kept (r : Record) : Prop := ∀ p ∈ r.entries, FieldValue.ofJson p.2.toJson = p.2

theorem kept_ofMembers (l : List (String × Json)) : (ofMembers l).Kept := by
  intro p hp
  obtain ⟨v, -, hx⟩ := mem_ofMembers hp
  rw [hx, FieldValue.toJson_ofJson, FieldValue.ofJson_settle]

theorem ofMembers_entries {r : Record} (h : r.Kept) :
    ofMembers (r.entries.map fun p => (p.1, p.2.toJson)) = r := by
  have hkept : (r.entries.map fun p => (p.1, FieldValue.ofJson p.2.toJson)) = r.entries := by
    refine (List.map_congr_left fun p hp => ?_).trans (List.map_id _)
    rw [h p hp]
    rfl
  rw [ofMembers, mapValues, List.map_map]
  exact (congrArg Fields.ofList hkept).trans (Fields.ofList_entries _)

theorem depth_value_le {l : List (String × Json)} {p : String × FieldValue}
    (hp : p ∈ (ofMembers l).entries) : p.2.toJson.depth ≤ Json.depthMembers l := by
  obtain ⟨v, hv, hx⟩ := mem_ofMembers hp
  rw [hx, FieldValue.toJson_ofJson]
  exact Nat.le_trans (Json.depth_settle v)
    (Json.depthMembers_le_iff.mp (Nat.le_refl _) _ (mem_of_lastValue? hv))

theorem depth_toJson_le_iff {r : Record} {d : Nat} :
    r.toJson.depth ≤ d + 1 ↔ ∀ p ∈ r.entries, p.2.toJson.depth ≤ d := by
  rw [toJson, Json.depth, Nat.add_le_add_iff_right, Json.depthMembers_le_iff, List.forall_mem_map]

theorem read_text {s : Bytes} {r : Record} (h : read s = .ok r) :
    read (Utf8.ofString r.text) = .ok r := by
  obtain ⟨l, hl, rfl⟩ := read_eq_ok.mp h
  have hdeep : (ofMembers l).toJson.depth ≤ Json.maxDepth := by
    apply Nat.le_trans (depth_toJson_le_iff.mpr fun p hp => depth_value_le hp)
    exact depth_of_parse hl
  exact read_eq_ok.mpr ⟨_, Json.parse_text hdeep, (ofMembers_entries (kept_ofMembers l)).symm⟩

theorem eq_ofMembers_iff {l : List (String × Json)} {r : Record} :
    r = ofMembers l ↔ r.names = (l.map Prod.fst).eraseDups ∧ ∀ name x, (name, x) ∈ r.entries →
      ∃ v, lastValue? l name = some v ∧ FieldValue.Keeps v x := by
  constructor
  · intro h
    subst h
    refine ⟨names_ofMembers l, fun name x hx => ?_⟩
    obtain ⟨v, hv, hxv⟩ := mem_ofMembers hx
    exact ⟨v, hv, hxv ▸ FieldValue.keeps_ofJson v⟩
  · intro h
    obtain ⟨hn, hkept⟩ := h
    apply Fields.ext
    apply eq_of_map_fst (hn.trans (names_ofMembers l).symm)
    intro name x y hx hy
    obtain ⟨v, hv, hxv⟩ := hkept name x hx
    obtain ⟨w, hw, hyw⟩ := mem_ofMembers hy
    rw [hv, Option.some.injEq] at hw
    rw [hxv.eq, hw, hyw]

/-- A text is read as a record exactly if it is the text of an object and the
record has its names in the order of first appearance, each with the last value
of the name, kept as what it is. The record is then read back from its own text
with the same fields, which write the same text again. -/
theorem reads_back_as_read (s : Bytes) (r : Record) :
    (read s = .ok r ↔ ∃ l, Json.parse s = .ok (.object l) ∧ r.names = (l.map Prod.fst).eraseDups ∧
      ∀ name x, (name, x) ∈ r.entries →
        ∃ v, lastValue? l name = some v ∧ FieldValue.Keeps v x) ∧
    (read s = .ok r → ∃ again, read (Utf8.ofString r.text) = .ok again ∧
      again.entries = r.entries ∧ again.text = r.text) := by
  constructor
  · rw [read_eq_ok]
    constructor
    · intro h
      obtain ⟨l, hl, hr⟩ := h
      exact ⟨l, hl, eq_ofMembers_iff.mp hr⟩
    · intro h
      obtain ⟨l, hl, hr⟩ := h
      exact ⟨l, hl, eq_ofMembers_iff.mpr hr⟩
  · intro h
    exact ⟨r, read_text h, rfl, rfl⟩

theorem reads_back_repeated : ∃ r : Record,
    read (Utf8.ofString "\x7b\"a\":1,\"b\":\"é\\n\",\"a\":-2.5,\"c\":\x7b\"k\":1,\"k\":[]\x7d\x7d") =
      .ok r ∧
    (∃ again, read (Utf8.ofString r.text) = .ok again ∧ again.entries = r.entries ∧
      again.text = r.text) ∧
    r.text = "\x7b\"a\":-2.5,\"b\":\"é\\n\",\"c\":\x7b\"k\":[]\x7d\x7d" := by
  let l : List (String × Json) := [("a", .number (.natural 1)), ("b", .string "é\n"),
    ("a", .number (.real ⟨true, 0x4004000000000000⟩)),
    ("c", .object [("k", .number (.natural 1)), ("k", .array [])])]
  have htext : (Json.object l).text =
      "\x7b\"a\":1,\"b\":\"é\\n\",\"a\":-2.5,\"c\":\x7b\"k\":1,\"k\":[]\x7d\x7d" := by decide +kernel
  have h : read (Utf8.ofString (Json.object l).text) = .ok (ofMembers l) :=
    read_eq_ok.mpr ⟨l, Json.parse_text (by decide), rfl⟩
  rw [htext] at h
  exact ⟨ofMembers l, h, (reads_back_as_read _ _).2 h, by decide +kernel⟩

end Record

end RecordSearch
