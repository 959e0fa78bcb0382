import RecordSearch.Record

/-!
# Extracted content

What an uploaded file holds: one text, or the rows of a table, each pairing
column names with cells.
-/

namespace RecordSearch

abbrev Row := Fields String

inductive ExtractedData where
  | text (s : String)
  | rows (table : List Row)
deriving DecidableEq

namespace ExtractedData

def rowToJson (r : Row) : Json := .object (r.entries.map fun p => (p.1, .string p.2))

def toJson : ExtractedData → Json
  | .text s => .string s
  | .rows table => .array (table.map rowToJson)

/-! ## Reading -/

def cell? : String × Json → Option (String × String)
  | (name, .string s) => some (name, s)
  | _ => none

def row? : Json → Option Row
  | .object members => (members.mapM cell?).map Fields.ofList
  | _ => none

def ofJson? : Json → Option ExtractedData
  | .string s => some (.text s)
  | .array items => (items.mapM row?).map .rows
  | _ => none

def reader (fuel depth : Nat) (s : Bytes) : Json.Outcome ExtractedData :=
  match Json.value fuel depth s with
  | .error e => .error e
  | .ok (v, t) =>
    match ofJson? v with
    | some d => .ok (d, t)
    | none => Json.failAt (.noVariant "ExtractedData") t

def read (s : Bytes) : Except Json.Failure ExtractedData :=
  Json.complete (reader (Json.fuelFor s) Json.maxDepth s)

end ExtractedData

end RecordSearch
