import RecordSearch.Query.Encoding
import RecordSearch.Upload.Content

/-!
# Answers

The bodies that the service answers with, their JSON form, and their readers.
-/

namespace RecordSearch

open Json (Outcome FieldReader StructReader required)

/-! ## Search -/

structure SearchResponse where
  results : List Record
  count : UInt64
  filters : Filters

namespace SearchResponse

def toJson (r : SearchResponse) : Json :=
  .object [
    ("results", .array (r.results.map Record.toJson)),
    ("count", .number (.natural r.count)),
    ("filters", r.filters.toJson)]

structure Draft where
  results : Option (List Record)
  count : Option UInt64
  filters : Option Filters

def structReader (fuel : Nat) : StructReader Draft SearchResponse where
  name := "SearchResponse"
  fields := [
    ⟨"results", fun d => d.results.isSome, fun depth d s =>
      (Json.listOf fuel (Record.reader fuel) depth s).map fun r =>
        (⟨some r.1, d.count, d.filters⟩, r.2)⟩,
    ⟨"count", fun d => d.count.isSome, fun _ d s =>
      (Json.natural "usize" s).map fun r => (⟨d.results, some r.1, d.filters⟩, r.2)⟩,
    ⟨"filters", fun d => d.filters.isSome, fun depth d s =>
      (Filters.reader fuel depth s).map fun r => (⟨d.results, d.count, some r.1⟩, r.2)⟩]
  start := ⟨none, none, none⟩
  finish := fun lack d => do
    let results ← required (lack 0 "results") d.results
    let count ← required (lack 1 "count") d.count
    let filters ← required (lack 2 "filters") d.filters
    return ⟨results, count, filters⟩

def read (s : Bytes) : Except Json.Failure SearchResponse :=
  let fuel := Json.fuelFor s
  Json.complete (Json.structOf (structReader fuel) fuel Json.maxDepth s)

end SearchResponse

/-! ## Submission -/

structure SubmitResponse where
  data : Record

namespace SubmitResponse

def toJson (r : SubmitResponse) : Json := .object [("data", r.data.toJson)]

def structReader (fuel : Nat) : StructReader (Option Record) SubmitResponse where
  name := "SubmitResponse"
  fields := [
    ⟨"data", Option.isSome, fun depth _ s =>
      (Record.reader fuel depth s).map fun r => (some r.1, r.2)⟩]
  start := none
  finish := fun lack d => (required (lack 0 "data") d).map SubmitResponse.mk

def read (s : Bytes) : Except Json.Failure SubmitResponse :=
  let fuel := Json.fuelFor s
  Json.complete (Json.structOf (structReader fuel) fuel Json.maxDepth s)

end SubmitResponse

/-! ## Upload -/

structure UploadResponse where
  message : String
  data : ExtractedData

namespace UploadResponse

def toJson (r : UploadResponse) : Json :=
  .object [("message", .string r.message), ("data", r.data.toJson)]

def structReader (fuel : Nat) :
    StructReader (Option String × Option ExtractedData) UploadResponse where
  name := "UploadResponse"
  fields := [
    ⟨"message", fun d => d.1.isSome, fun _ d s =>
      (Json.anyText s).map fun r => ((some r.1, d.2), r.2)⟩,
    ⟨"data", fun d => d.2.isSome, fun depth d s =>
      (ExtractedData.reader fuel depth s).map fun r => ((d.1, some r.1), r.2)⟩]
  start := (none, none)
  finish := fun lack d => do
    let message ← required (lack 0 "message") d.1
    let data ← required (lack 1 "data") d.2
    return ⟨message, data⟩

def read (s : Bytes) : Except Json.Failure UploadResponse :=
  let fuel := Json.fuelFor s
  Json.complete (Json.structOf (structReader fuel) fuel Json.maxDepth s)

end UploadResponse

/-! ## Errors -/

structure ErrorResponse where
  error : String
  details : Option String
deriving DecidableEq, Repr

namespace ErrorResponse

/-- Details are written only if there are any. -/
def toJson (r : ErrorResponse) : Json :=
  .object (("error", .string r.error) ::
    match r.details with
    | some d => [("details", .string d)]
    | none => [])

def structReader : StructReader (Option String × Option (Option String)) ErrorResponse where
  name := "ErrorResponse"
  fields := [
    ⟨"error", fun d => d.1.isSome, fun _ d s =>
      (Json.anyText s).map fun r => ((some r.1, d.2), r.2)⟩,
    ⟨"details", fun d => d.2.isSome, fun _ d s =>
      (Json.anyTextOrNull s).map fun r => ((d.1, some r.1), r.2)⟩]
  start := (none, none)
  finish := fun lack d =>
    (required (lack 0 "error") d.1).map fun error => ⟨error, d.2.getD none⟩

def read (s : Bytes) : Except Json.Failure ErrorResponse :=
  Json.complete (Json.structOf structReader (Json.fuelFor s) Json.maxDepth s)

end ErrorResponse

/-! ## Health -/

structure HealthResponse where
  status : String
  records : UInt64
deriving DecidableEq, Repr

namespace HealthResponse

def toJson (r : HealthResponse) : Json :=
  .object [("status", .string r.status), ("records", .number (.natural r.records))]

def structReader : StructReader (Option String × Option UInt64) HealthResponse where
  name := "HealthResponse"
  fields := [
    ⟨"status", fun d => d.1.isSome, fun _ d s =>
      (Json.anyText s).map fun r => ((some r.1, d.2), r.2)⟩,
    ⟨"records", fun d => d.2.isSome, fun _ d s =>
      (Json.natural "usize" s).map fun r => ((d.1, some r.1), r.2)⟩]
  start := (none, none)
  finish := fun lack d => do
    let status ← required (lack 0 "status") d.1
    let records ← required (lack 1 "records") d.2
    return ⟨status, records⟩

def read (s : Bytes) : Except Json.Failure HealthResponse :=
  Json.complete (Json.structOf structReader (Json.fuelFor s) Json.maxDepth s)

end HealthResponse

end RecordSearch
