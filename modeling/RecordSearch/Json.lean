import RecordSearch.Binary64

/-!
# JSON values

A value as it stands in a text: the members of an object are listed in the
order of the text, repeats included. `settle` gives the form in which a value
is kept: members sorted by name, and of a repeated name the last value.
-/

namespace RecordSearch

/-! ## Numbers -/

/-- A number without fraction and exponent is kept exactly if it fits 64 bits;
`negative m` is `-(m + 1)`. Every other number is a floating point number. -/
inductive Number where
  | natural (n : UInt64)
  | negative (m : Fin 0x8000000000000000)
  | real (x : Binary64)
deriving DecidableEq, Repr

namespace Number

def ofNat? (n : Nat) : Option Number :=
  if n < UInt64.size then some (.natural n.toUInt64) else none

def ofInt? : Int → Option Number
  | .ofNat n => ofNat? n
  | .negSucc m => if h : m < 0x8000000000000000 then some (.negative ⟨m, h⟩) else none

/-- Equal as numbers of one kind: an integer never equals a floating point number. -/
def equal : Number → Number → Bool
  | .natural m, .natural n => m == n
  | .negative m, .negative n => m == n
  | .real x, .real y => x.equal y
  | _, _ => false

def toBinary64? : Number → Option Binary64
  | .natural n => Binary64.ofInt? n.toNat
  | .negative m => Binary64.ofInt? (Int.negSucc m)
  | .real x => some x

end Number

/-! ## Values -/

inductive Json where
  | null
  | bool (b : Bool)
  | number (n : Number)
  | string (s : String)
  | array (items : List Json)
  | object (members : List (String × Json))
deriving Repr

namespace Json

instance : Inhabited Json := ⟨.null⟩

/-- Puts a member at its place among sorted members, unless its name is there. -/
def addMember (name : String) (value : Json) : List (String × Json) → List (String × Json)
  | [] => [(name, value)]
  | (n, v) :: rest =>
    if name < n then (name, value) :: (n, v) :: rest
    else if name = n then (n, v) :: rest
    else (n, v) :: addMember name value rest

mutual

/-- Sorts the members of every object by name; the last value of a name stays. -/
def settle : Json → Json
  | .null => .null
  | .bool b => .bool b
  | .number n => .number n
  | .string s => .string s
  | .array items => .array (settleItems items)
  | .object members => .object (settleMembers members)

def settleItems : List Json → List Json
  | [] => []
  | v :: rest => settle v :: settleItems rest

def settleMembers : List (String × Json) → List (String × Json)
  | [] => []
  | (name, v) :: rest => addMember name (settle v) (settleMembers rest)

end

mutual

def equal : Json → Json → Bool
  | .null, .null => true
  | .bool a, .bool b => a == b
  | .number m, .number n => m.equal n
  | .string s, .string t => s == t
  | .array xs, .array ys => equalItems xs ys
  | .object xs, .object ys => equalMembers xs ys
  | _, _ => false

def equalItems : List Json → List Json → Bool
  | [], [] => true
  | x :: xs, y :: ys => equal x y && equalItems xs ys
  | _, _ => false

def equalMembers : List (String × Json) → List (String × Json) → Bool
  | [], [] => true
  | (m, x) :: xs, (n, y) :: ys => m == n && equal x y && equalMembers xs ys
  | _, _ => false

end

mutual

def depth : Json → Nat
  | .array items => depthItems items + 1
  | .object members => depthMembers members + 1
  | _ => 0

def depthItems : List Json → Nat
  | [] => 0
  | v :: rest => max (depth v) (depthItems rest)

def depthMembers : List (String × Json) → Nat
  | [] => 0
  | (_, v) :: rest => max (depth v) (depthMembers rest)

end

end Json

end RecordSearch
