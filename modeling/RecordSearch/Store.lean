import RecordSearch.Query.Fragment

/-!
# The store

Submitted records in the order of submission. Records are only ever added, at
the end, so a snapshot stays as it is while the store grows.
-/

namespace RecordSearch

structure Store where
  records : List Record

namespace Store

def empty : Store := ⟨[]⟩

def size (s : Store) : Nat := s.records.length

def isEmpty (s : Store) : Bool := s.records.isEmpty

def append (s : Store) (r : Record) : Store := ⟨s.records ++ [r]⟩

def appendAll (s : Store) (rs : List Record) : Store := rs.foldl append s

def snapshot (s : Store) : List Record := s.records

end Store

/-! ## Submissions -/

/-- A submitted record has its identifier first. An identifier among the
submitted fields takes the place of the one given here. -/
def newSubmission (id : String) (fields : List (String × FieldValue)) : Record :=
  ((Fields.empty : Record).insert "id" (.text id)).insertAll fields

/-! ## Sample records -/

def employee (id firstName lastName employeeId : String) (salary : UInt64) : Record :=
  Fields.ofList [
    ("id", .text id),
    ("firstName", .text firstName),
    ("lastName", .text lastName),
    ("employeeId", .text employeeId),
    ("salary", .number (.natural salary))]

def sampleRecords : List Record := [
  employee "1" "John" "Doe" "ABC-12345" 50000,
  employee "2" "Jane" "Smith" "ABC-12344" 60000]

def Store.withSamples : Store := Store.empty.appendAll sampleRecords

end RecordSearch
