import RecordSearch.Record
import RecordSearch.Text.Lowercase

/-!
# Constraints and filters

A constraint says what the value of one field must be; filters hold one for each
of some fields. A text constraint looks at texts only and lets every other value
pass. A range admits numbers only.
-/

namespace RecordSearch

inductive Constraint where
  | exactPhrase (value : String)
  | fieldMatch (value : String)
  | numericRange (min max : UInt64)
deriving DecidableEq, Repr

abbrev Filters := Fields Constraint

/-! ## Ranges -/

/-- Integers are compared with the bounds exactly. Floating point numbers are
compared with the floating point numbers nearest to the bounds. -/
def Number.inRange (n : Number) (min max : UInt64) : Bool :=
  match n with
  | .natural v => min ≤ v && v ≤ max
  | .negative _ => false
  | .real x =>
    (Binary64.unitsAt (Binary64.rankOfNat min.toNat) : Int) ≤ x.signedUnits &&
      x.signedUnits ≤ Binary64.unitsAt (Binary64.rankOfNat max.toNat)

/-! ## Matching -/

/-- Whole texts are compared in lower case. -/
def sameText (actual expected : String) : Bool :=
  Text.lowercase actual == Text.lowercase expected

def Constraint.admits (c : Constraint) (value : Option FieldValue) : Bool :=
  match c with
  | .numericRange min max =>
    match value with
    | some (.number n) => n.inRange min max
    | _ => false
  | .exactPhrase expected | .fieldMatch expected =>
    match value.bind FieldValue.asText? with
    | some actual => sameText actual expected
    | none => true

namespace Filters

def accepts (f : Filters) (r : Record) : Bool :=
  f.entries.all fun p => p.2.admits (r.get? p.1)

def select {α : Type} (record : α → Record) (f : Filters) (items : List α) : List α :=
  items.filter fun x => f.accepts (record x)

def evaluate (f : Filters) (records : List Record) : List Record := f.select id records

def equal (f g : Filters) : Bool := f.agree (· == ·) g

end Filters

end RecordSearch
