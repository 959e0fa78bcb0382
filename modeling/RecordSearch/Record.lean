import RecordSearch.Fields
import RecordSearch.Json.Shape
import RecordSearch.Json.Writer

/-!
# Records

A record is a submitted JSON object: named values in the order in which the
names first appeared. Texts and numbers take part in matching; every other value
is kept as it is, settled.
-/

namespace RecordSearch

/-! ## Values -/

inductive FieldValue where
  | text (s : String)
  | number (n : Number)
  | other (v : Json)
deriving Repr

namespace FieldValue

def ofJson : Json → FieldValue
  | .string s => .text s
  | .number n => .number n
  | v => .other v.settle

def toJson : FieldValue → Json
  | .text s => .string s
  | .number n => .number n
  | .other v => v

def ofInt? (n : Int) : Option FieldValue := (Number.ofInt? n).map .number

def asText? : FieldValue → Option String
  | .text s => some s
  | _ => none

def asBinary64? : FieldValue → Option Binary64
  | .number n => n.toBinary64?
  | _ => none

def equal : FieldValue → FieldValue → Bool
  | .text s, .text t => s == t
  | .number m, .number n => m.equal n
  | .other v, .other w => v.equal w
  | _, _ => false

def reader (fuel depth : Nat) (s : Bytes) : Json.Outcome FieldValue :=
  (Json.value fuel depth s).map fun r => (ofJson r.1, r.2)

def read (s : Bytes) : Except Json.Failure FieldValue :=
  Json.complete (reader (Json.fuelFor s) Json.maxDepth s)

end FieldValue

/-! ## Records -/

abbrev Record := Fields FieldValue

namespace Record

def toJson (r : Record) : Json := .object (r.entries.map fun p => (p.1, p.2.toJson))

def text (r : Record) : String := r.toJson.text

def equal (r s : Record) : Bool := r.agree FieldValue.equal s

def reader (fuel depth : Nat) (s : Bytes) : Json.Outcome Record :=
  (Json.mapOf fuel (FieldValue.reader fuel) depth s).map fun r => (Fields.ofList r.1, r.2)

def readFirst (s : Bytes) : Json.Outcome Record := reader (Json.fuelFor s) Json.maxDepth s

def read (s : Bytes) : Except Json.Failure Record := Json.complete (readFirst s)

end Record

end RecordSearch
