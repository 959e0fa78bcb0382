import RecordSearch.Query.Constraint
import RecordSearch.Text.Numeral

/-!
# Queries

A query is a text in which fragments are found: `name:"phrase"`,
`name:low..high` and `name:token`. At one place a phrase goes before a range and
a range before a token. Text that is no fragment is passed over; of two
fragments for one field the later holds.
-/

namespace RecordSearch.Query

/-! ## Characters -/

/-- A character of a field name: an ASCII letter, a digit or an underscore. -/
def isWord (c : Char) : Bool := c.isAlphanum || c = '_'

def isToken (c : Char) : Bool := isWord c || c = '@' || c = '.' || c = '-'

/-! ## Bounds -/

def largest : Nat := UInt64.size - 1

/-- The value of decimal digits. Where they are refused the largest value stands for them. -/
def bound (digits : List Char) : UInt64 :=
  match Text.natural64 (String.ofList digits) with
  | .ok n => n.toUInt64
  | .error _ => largest.toUInt64

/-! ## What follows a field name

Each shape is looked for at the text after the name; the answer is the
constraint and the number of characters it takes. -/

def phrase? (s : List Char) : Option (Constraint × Nat) :=
  match s with
  | ':' :: '"' :: t =>
    let value := t.takeWhile (· ≠ '"')
    if value.isEmpty then none
    else
      match t.dropWhile (· ≠ '"') with
      | [] => none
      | _ :: _ => some (.exactPhrase (String.ofList value), value.length + 3)
  | _ => none

def range? (s : List Char) : Option (Constraint × Nat) :=
  match s with
  | ':' :: t =>
    let low := t.takeWhile Char.isDigit
    match t.dropWhile Char.isDigit with
    | '.' :: '.' :: u =>
      let high := u.takeWhile Char.isDigit
      if low.isEmpty || high.isEmpty then none
      else some (.numericRange (bound low) (bound high), low.length + high.length + 3)
    | _ => none
  | _ => none

def token? (s : List Char) : Option (Constraint × Nat) :=
  match s with
  | ':' :: t =>
    let value := t.takeWhile isToken
    if value.isEmpty then none
    else some (.fieldMatch (String.ofList value), value.length + 1)
  | _ => none

def shape? (s : List Char) : Option (Constraint × Nat) :=
  match phrase? s with
  | some r => some r
  | none =>
    match range? s with
    | some r => some r
    | none => token? s

/-! ## Scanning -/

/-- A fragment and the places where it starts and ends, in characters. -/
structure Fragment where
  start : Nat
  stop : Nat
  field : String
  constraint : Constraint
deriving DecidableEq, Repr

/-- The fragments of a text whose first character stands at `pos`. A name that
no shape follows is passed over whole, for what follows its parts is the same. -/
def scanFrom (pos : Nat) (s : List Char) : List Fragment :=
  match s with
  | [] => []
  | c :: t =>
    if isWord c then
      let name := c :: t.takeWhile isWord
      let here := pos + name.length
      have := (List.dropWhile_sublist isWord (l := t)).length_le
      match shape? (t.dropWhile isWord) with
      | some (constraint, n) =>
        ⟨pos, here + n, String.ofList name, constraint⟩ ::
          scanFrom (here + n) ((t.dropWhile isWord).drop n)
      | none => scanFrom here (t.dropWhile isWord)
    else scanFrom (pos + 1) t
termination_by s.length
decreasing_by all_goals (simp only [List.length_cons, List.length_drop]; omega)

def scan (s : List Char) : List Fragment := scanFrom 0 s

def parse (query : String) : Filters :=
  Fields.ofList ((scan query.toList).map fun f => (f.field, f.constraint))

end RecordSearch.Query
