import RecordSearch.Query.Constraint

/-!
# Constraints as JSON

A constraint is written as an object with its variant under `type`. It is read
from such an object, whatever the order of its members, or from a list that
starts with the variant.
-/

namespace RecordSearch

/-! ## Writing -/

namespace Constraint

inductive Variant where
  | exactPhrase
  | fieldMatch
  | numericRange
deriving DecidableEq, Repr

def Variant.name : Variant → String
  | .exactPhrase => "exact_phrase"
  | .fieldMatch => "field_match"
  | .numericRange => "numeric_range"

def Variant.all : List Variant := [.exactPhrase, .fieldMatch, .numericRange]

def tagName : String := "type"

def tagged (v : Variant) (members : List (String × Json)) : Json :=
  .object ((tagName, .string v.name) :: members)

def toJson : Constraint → Json
  | .exactPhrase value => tagged .exactPhrase [("value", .string value)]
  | .fieldMatch value => tagged .fieldMatch [("value", .string value)]
  | .numericRange min max =>
    tagged .numericRange [("min", .number (.natural min)), ("max", .number (.natural max))]

/-! ## The values of a variant -/

open Json (Fault Found Outcome failAt)

def Variant.title : Variant → String
  | .exactPhrase => "struct variant Constraint::ExactPhrase"
  | .fieldMatch => "struct variant Constraint::FieldMatch"
  | .numericRange => "struct variant Constraint::NumericRange"

def stringIn : Json → Except Fault String
  | .string s => .ok s
  | v => .error (.wrongType (.ofJson v) "a string")

def naturalIn : Json → Except Fault UInt64
  | .number n => Json.Number.naturalOf "u64" n
  | v => .error (.wrongType (.ofJson v) "u64")

def setOnce {α : Type} (name : String) (read : Json → Except Fault α) (old : Option α) (v : Json) :
    Except Fault (Option α) :=
  match old with
  | some _ => .error (.duplicateField name)
  | none => (read v).map some

def textMember (state : Option String) (p : String × Json) : Except Fault (Option String) :=
  if p.1 = "value" then setOnce "value" stringIn state p.2 else .ok state

def boundsMember (state : Option UInt64 × Option UInt64) (p : String × Json) :
    Except Fault (Option UInt64 × Option UInt64) :=
  if p.1 = "min" then (setOnce "min" naturalIn state.1 p.2).map fun m => (m, state.2)
  else if p.1 = "max" then (setOnce "max" naturalIn state.2 p.2).map fun m => (state.1, m)
  else .ok state

def textOfMembers (members : List (String × Json)) : Except Fault String := do
  let value ← members.foldlM textMember none
  Json.required (.missingField "value") value

def boundsOfMembers (members : List (String × Json)) : Except Fault (UInt64 × UInt64) := do
  let (min, max) ← members.foldlM boundsMember (none, none)
  let min ← Json.required (.missingField "min") min
  let max ← Json.required (.missingField "max") max
  return (min, max)

def textOfItems (v : Variant) (items : List Json) : Except Fault String :=
  match items with
  | [] => .error (.wrongLength 0 (v.title ++ " with 1 element"))
  | [x] => stringIn x
  | x :: rest => do
    let _ ← stringIn x
    .error (.wrongLength (rest.length + 1) "1 element in sequence")

def boundsOfItems (v : Variant) (items : List Json) : Except Fault (UInt64 × UInt64) :=
  match items with
  | [] => .error (.wrongLength 0 (v.title ++ " with 2 elements"))
  | [x] => do
    let _ ← naturalIn x
    .error (.wrongLength 1 (v.title ++ " with 2 elements"))
  | x :: y :: rest => do
    let min ← naturalIn x
    let max ← naturalIn y
    if rest.isEmpty then .ok (min, max)
    else .error (.wrongLength (rest.length + 2) "2 elements in sequence")

def ofText (v : Variant) (value : String) : Constraint :=
  match v with
  | .exactPhrase => .exactPhrase value
  | _ => .fieldMatch value

def ofMembers (v : Variant) (members : List (String × Json)) : Except Fault Constraint :=
  match v with
  | .numericRange => (boundsOfMembers members).map fun b => .numericRange b.1 b.2
  | _ => (textOfMembers members).map (ofText v)

def ofItems (v : Variant) (items : List Json) : Except Fault Constraint :=
  match v with
  | .numericRange => (boundsOfItems v items).map fun b => .numericRange b.1 b.2
  | _ => (textOfItems v items).map (ofText v)

/-! ## Reading -/

def variant (s : Bytes) : Outcome Variant :=
  match Json.stringAs "variant identifier" s with
  | .error e => .error e
  | .ok (name, t) =>
    match Variant.all.find? fun v => v.name == name with
    | some v => .ok (v, t)
    | none => failAt (.unknownVariant name (Variant.all.map Variant.name)) t

/-- The variant, if it has been read, and the other members, last first. -/
abbrev Members := Option Variant × List (String × Json)

def taggedMember (fuel depth : Nat) (state : Members) (key : String) (s : Bytes) :
    Outcome Members :=
  if key = tagName then
    if state.1.isSome then failAt (.duplicateField tagName) s
    else (Json.valueOf key variant s).map fun r => ((some r.1, state.2), r.2)
  else
    (Json.valueOf key (Json.value fuel depth) s).map fun r =>
      ((state.1, (key, r.1) :: state.2), r.2)

/-- Turns a fault of the content into a failure at the place reached. -/
def settled (r : Except Fault Constraint) (s : Bytes) : Outcome Constraint :=
  match r with
  | .ok c => .ok (c, s)
  | .error fault => failAt fault s

def fromObject (fuel depth : Nat) (s : Bytes) : Outcome Constraint :=
  match Json.membersFrom (taggedMember fuel depth) fuel true (none, []) s with
  | .error e => .error e
  | .ok ((none, _), t) => failAt (.missingField tagName) t
  | .ok ((some v, others), t) => settled (ofMembers v others.reverse) t

def fromArray (fuel depth : Nat) (s : Bytes) : Outcome Constraint :=
  match Json.nextItem true s with
  | .error e => .error e
  | .ok (.closed t) => failAt (.missingField tagName) t
  | .ok (.more t) =>
    match Json.within (.index 0) (variant t) with
    | .error e => .error e
    | .ok (v, u) =>
      -- the variant was one of the items that the fuel counts
      match Json.itemsFrom (Json.value fuel depth) (fuel - 1) 1 [] u with
      | .error e => .error e
      | .ok (rest, w) => settled (ofItems v rest) w

def reader (fuel depth : Nat) (s : Bytes) : Outcome Constraint :=
  Json.opened 123 depth (fromObject fuel)
    (Json.opened 91 depth (fromArray fuel)
      (Json.refuse "internally tagged enum Constraint"))
    s

def read (s : Bytes) : Except Json.Failure Constraint :=
  Json.complete (reader (Json.fuelFor s) Json.maxDepth s)

end Constraint

/-! ## Filters -/

namespace Filters

def toJson (f : Filters) : Json := .object (f.entries.map fun p => (p.1, p.2.toJson))

def reader (fuel depth : Nat) (s : Bytes) : Json.Outcome Filters :=
  (Json.mapOf fuel (Constraint.reader fuel) depth s).map fun r => (Fields.ofList r.1, r.2)

def read (s : Bytes) : Except Json.Failure Filters :=
  Json.complete (reader (Json.fuelFor s) Json.maxDepth s)

end Filters

end RecordSearch
