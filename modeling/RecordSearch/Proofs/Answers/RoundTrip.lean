import RecordSearch.Answers
import RecordSearch.Proofs.Query.Encoding

/-!
# Values read back from their texts

Constraints, filters, extracted data and the answers that hold them are read back
from the texts they are written as. What a text of a constraint or of filters may
hold besides is gone when the value is written again.
-/

namespace RecordSearch

open Json (Reads structMember_takes structOf_reads anyText_reads anyTextOrNull_reads natural_reads
  chars_lt_fuel)
open Utf8 (encode)

section
variable {α : Type} (toJson : α → Json) (read : Bytes → Except Json.Failure α)

def ReadsBack : Prop := ∀ x, read (Utf8.ofString (toJson x).text) = .ok x

/-- What is read from any text is written as one that is read as the same and
written as itself. -/
def Settles : Prop := ∀ s x, read s = .ok x →
  ∃ y, read (Utf8.ofString (toJson x).text) = .ok y ∧ y = x ∧ (toJson y).text = (toJson x).text

variable {toJson read}

theorem ReadsBack.settles (h : ReadsBack toJson read) : Settles toJson read :=
  fun _ x _ => ⟨x, h x, rfl, rfl⟩

end

/-! ## Extracted data -/

theorem mapM_map_of_some {α β : Type} {f : α → β} {g : β → Option α} {l : List α}
    (h : ∀ x ∈ l, g (f x) = some x) : (l.map f).mapM g = some l := by
  induction l with
  | nil => rfl
  | cons x l ih =>
    rw [List.map_cons, List.mapM_cons, h x (List.mem_cons_self ..),
      ih fun y hy => h y (List.mem_cons_of_mem _ hy)]
    rfl

namespace ExtractedData

theorem row?_rowToJson (r : Row) : row? (rowToJson r) = some r := by
  have hcells : (r.entries.map fun p => (p.1, Json.string p.2)).mapM cell? = some r.entries :=
    mapM_map_of_some fun _ _ => rfl
  rw [rowToJson, row?, hcells]
  exact congrArg some (Fields.ofList_entries r)

theorem ofJson?_toJson (d : ExtractedData) : ofJson? d.toJson = some d := by
  cases d with
  | text s => rfl
  | rows table =>
    rw [toJson, ofJson?, mapM_map_of_some fun r _ => row?_rowToJson r]
    rfl

theorem depth_rowToJson (r : Row) : (rowToJson r).depth ≤ 1 := by
  rw [rowToJson, Json.depth, Nat.add_le_add_iff_right, Json.depthMembers_le_iff, List.forall_mem_map]
  exact fun _ _ => Nat.le_refl 0

theorem depth_toJson_le (d : ExtractedData) : d.toJson.depth ≤ 2 := by
  cases d with
  | text s => exact Nat.zero_le 2
  | rows table =>
    rw [toJson, Json.depth, Nat.add_le_add_iff_right, Json.depthItems_le_iff, List.forall_mem_map]
    exact fun r _ => depth_rowToJson r

theorem reader_reads (d : ExtractedData) {fuel depth : Nat} (hd : 2 ≤ depth)
    (hf : (encode d.toJson.chars).length < fuel) : Reads (reader fuel depth) d.toJson d := by
  intro rest hs
  have hread := Json.value_chars depth d.toJson (Nat.le_trans d.depth_toJson_le hd) fuel hf rest hs
  simp only [reader, hread, ofJson?_toJson]

theorem read_text : ReadsBack toJson read := by
  intro d
  exact (d.reader_reads (by decide : 2 ≤ Json.maxDepth) (chars_lt_fuel _)).complete

end ExtractedData

/-! ## Answers -/

namespace UploadResponse

theorem reads (x : UploadResponse) {fuel : Nat} (hf : (encode x.toJson.chars).length < fuel) :
    Reads (Json.structOf (structReader fuel) fuel Json.maxDepth) x.toJson x := by
  have hfit : (encode x.data.toJson.chars).length < fuel :=
    Nat.lt_trans (Json.member_lt_object (p := ("data", x.data.toJson)) (by simp)) hf
  have hmessage := (anyText_reads x.message).map fun s => (some s, (none : Option ExtractedData))
  have hdata := (x.data.reader_reads (by decide : 2 ≤ 126) hfit).map fun d => (some x.message, some d)
  exact structOf_reads (.cons (structMember_takes rfl rfl hmessage)
    (.cons (structMember_takes rfl rfl hdata) (.nil _))) rfl hf

theorem read_text : ReadsBack toJson read := by
  intro x
  exact (x.reads (chars_lt_fuel _)).complete

end UploadResponse

namespace HealthResponse

theorem reads (x : HealthResponse) {fuel : Nat} (hf : (encode x.toJson.chars).length < fuel) :
    Reads (Json.structOf structReader fuel Json.maxDepth) x.toJson x := by
  have hstatus := (anyText_reads x.status).map fun s => (some s, (none : Option UInt64))
  have hrecords := (natural_reads "usize" x.records).map fun n => (some x.status, some n)
  exact structOf_reads (.cons (structMember_takes rfl rfl hstatus)
    (.cons (structMember_takes rfl rfl hrecords) (.nil _))) rfl hf

theorem read_text : ReadsBack toJson read := by
  intro x
  exact (x.reads (chars_lt_fuel _)).complete

end HealthResponse

namespace ErrorResponse

theorem reads (x : ErrorResponse) {fuel : Nat} (hf : (encode x.toJson.chars).length < fuel) :
    Reads (Json.structOf structReader fuel Json.maxDepth) x.toJson x := by
  obtain ⟨error, details⟩ := x
  have herror := (anyText_reads error).map fun s => (some s, (none : Option (Option String)))
  cases details with
  | none => exact structOf_reads (.cons (structMember_takes rfl rfl herror) (.nil _)) rfl hf
  | some text =>
    have hdetails := (anyTextOrNull_reads text).map fun d => (some error, some d)
    exact structOf_reads (.cons (structMember_takes rfl rfl herror)
      (.cons (structMember_takes rfl rfl hdetails) (.nil _))) rfl hf

theorem read_text : ReadsBack toJson read := by
  intro x
  exact (x.reads (chars_lt_fuel _)).complete

end ErrorResponse

/-! ## All of them -/

/-- The values that requests and answers hold are read back from their texts. A text
is read as a constraint or as filters exactly if it holds a value that stands for
them, whatever else is in it, and then the value settles. -/
theorem values_read_back :
    ReadsBack Constraint.toJson Constraint.read ∧ ReadsBack Filters.toJson Filters.read ∧
    ReadsBack ExtractedData.toJson ExtractedData.read ∧
    ReadsBack UploadResponse.toJson UploadResponse.read ∧
    ReadsBack ErrorResponse.toJson ErrorResponse.read ∧
    ReadsBack HealthResponse.toJson HealthResponse.read ∧
    (∀ s c, Constraint.read s = .ok c ↔ ∃ v, Json.parse s = .ok v ∧ Constraint.Denotes v c) ∧
    (∀ s f, Filters.read s = .ok f ↔ ∃ v, Json.parse s = .ok v ∧ Filters.Denotes v f) ∧
    Settles Constraint.toJson Constraint.read ∧ Settles Filters.toJson Filters.read :=
  ⟨Constraint.read_text, Filters.read_text, ExtractedData.read_text, UploadResponse.read_text,
    ErrorResponse.read_text, HealthResponse.read_text, fun _ _ => Constraint.read_eq_ok,
    fun _ _ => Filters.read_eq_ok, ReadsBack.settles Constraint.read_text,
    ReadsBack.settles Filters.read_text⟩

/-- A text with the tag escaped and in the middle, blanks, and a member of another name. -/
def disguised : Bytes := Utf8.ofString
  " \x7b\"max\":3, \"note\":[null],\n\"t\\u0079pe\" : \"numeric_range\", \"min\":9\x7d"

theorem values_read_back_disguised :
    Constraint.read disguised = .ok (.numericRange 9 3) ∧
    ∃ c, Constraint.read (Utf8.ofString (Constraint.numericRange 9 3).toJson.text) = .ok c ∧
      c = .numericRange 9 3 ∧ c.toJson.text = (Constraint.numericRange 9 3).toJson.text := by
  obtain ⟨-, -, -, -, -, -, -, -, hsettles, -⟩ := values_read_back
  have hsome : (Constraint.read disguised).toOption = some (.numericRange 9 3) := by decide +kernel
  have hread : Constraint.read disguised = .ok (.numericRange 9 3) := by
    cases hr : Constraint.read disguised with
    | error e =>
      rw [hr] at hsome
      cases hsome
    | ok c =>
      rw [hr] at hsome
      exact congrArg Except.ok (Option.some.inj hsome)
  exact ⟨hread, hsettles _ _ hread⟩

end RecordSearch
