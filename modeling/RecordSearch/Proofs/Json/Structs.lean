import RecordSearch.Proofs.Json.RoundTrip

/-!
# Written values read by shape

What the readers of a given shape make of a written value: a list is read back if
its items are, and a structure is made from the states that the members of its
object lead through.
-/

namespace RecordSearch.Json

open Text (isDigit Stops stops_nil)
open Utf8 (encode encode_nil)

section
variable {α β σ τ : Type}

/-- The text of `v` is read as `x`, before bytes that go on no number. -/
def Reads (read : Bytes → Outcome α) (v : Json) (x : α) : Prop := ReadsAs read v.chars x

theorem Reads.map {read : Bytes → Outcome α} {v : Json} {x : α} (h : Reads read v x) (f : α → β) :
    Reads (fun s => (read s).map fun r => (f r.1, r.2)) v (f x) := by
  intro rest hs
  dsimp only
  rw [h rest hs]
  rfl

/-! ## Scalars -/

theorem anyText_reads (text : String) : Reads anyText (.string text) text := by
  intro rest _
  obtain ⟨bs, hq, hread⟩ := stringTail_quote text
  rw [chars, hq, List.cons_append, anyText, stringAs, skipBlanks_cons rfl]
  exact hread rest

theorem anyTextOrNull_reads (text : String) : Reads anyTextOrNull (.string text) (some text) := by
  intro rest hs
  have hread := anyText_reads text rest hs
  obtain ⟨bs, hq, -⟩ := stringTail_quote text
  rw [chars, hq, List.cons_append] at hread ⊢
  rw [anyTextOrNull, skipBlanks_cons rfl]
  simp [hread, Except.map]

theorem natural_reads (expected : String) (n : UInt64) :
    Reads (natural expected) (.number (.natural n)) n := by
  intro rest hs
  obtain ⟨b, bs, he, hb⟩ := encode_numberChars (.natural n)
  rw [chars, he, List.cons_append, natural]
  rcases hb with ⟨rfl, hread⟩ | ⟨hd, hread⟩
  · rw [skipBlanks_cons rfl]
    simp [hread rest hs, Number.naturalOf]
  · rw [skipBlanks_cons (digit_not_blank hd)]
    simp [digit_ne (c := 45) hd rfl, hd, hread rest hs, Number.naturalOf]

/-! ## Lists and maps -/

theorem opened_cons {b : UInt8} (hb : isBlank b = false) (depth : Nat)
    (inner : Nat → Bytes → Outcome α) (otherwise : Bytes → Outcome α) (s : Bytes) :
    opened b (depth + 1) inner otherwise (b :: s) = inner depth s := by
  rw [opened, skipBlanks_cons hb]
  simp

theorem listOf_reads {toJson : α → Json} {read : Nat → Bytes → Outcome α} {fuel depth : Nat}
    {xs : List α} (h : ∀ x ∈ xs, Reads (read depth) (toJson x) x)
    (hf : (encode (Json.array (xs.map toJson)).chars).length < fuel) :
    Reads (listOf fuel read (depth + 1)) (.array (xs.map toJson)) xs := by
  intro rest _
  have hcount := length_lt_array (xs.map toJson)
  rw [List.length_map] at hcount
  rw [encode_array, charsItems_eq, List.map_map, listOf, opened_cons rfl]
  exact items_written (fun x => (toJson x).chars) (fun x _ => opens_chars (toJson x)) h fuel (by omega) rest

/-! ## Structures -/

theorem structMember_takes {fields : List (FieldReader σ)} {f : FieldReader σ} {fuel depth : Nat}
    {a b : σ} {name : String} {v : Json} (hf : fields.find? (fun f => f.name == name) = some f)
    (hset : f.isSet a = false) (h : Reads (f.read depth a) v b) :
    Takes (structMember fuel depth fields) a (name, v.chars) b := by
  intro rest hs
  simp only [structMember, hf, hset]
  exact valueOf_colon name (h rest hs)

theorem structOf_reads {r : StructReader σ τ} {fuel depth : Nat} {l : List (String × Json)} {a : σ}
    {x : τ}
    (h : Leads (Takes (structMember fuel depth r.fields)) r.start (l.map fun p => (p.1, p.2.chars)) a)
    (hx : r.finish (fun _ name => .missingField name) a = .ok x)
    (hf : (encode (Json.object l).chars).length < fuel) :
    Reads (structOf r fuel (depth + 1)) (.object l) x := by
  intro rest _
  have hcount := length_lt_object l
  have hread := membersFrom_written h fuel (by rw [List.length_map]; omega) true rest
  simp only [listed_true, List.map_map, Function.comp_def] at hread
  rw [← charsMembers_eq] at hread
  simp only [structOf]
  rw [encode_object, opened_cons rfl]
  simp only [hread, finished, hx]

end

/-! ## Whole texts -/

theorem ofString_text (v : Json) : Utf8.ofString v.text = encode v.chars := by
  rw [Utf8.ofString, text, String.toList_ofList]

theorem chars_lt_fuel (v : Json) : (encode v.chars).length < fuelFor (Utf8.ofString v.text) := by
  rw [ofString_text]
  exact Nat.lt_succ_self _

theorem Reads.complete {α : Type} {read : Bytes → Outcome α} {v : Json} {x : α} (h : Reads read v x) :
    Json.complete (read (Utf8.ofString v.text)) = .ok x := by
  have hread := h [] stops_nil
  rw [List.append_nil] at hread
  rw [ofString_text, hread]
  rfl

end RecordSearch.Json
