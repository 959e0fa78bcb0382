import RecordSearch.Json.Skip

/-!
# Reading values of a given shape

Readers for texts, counts, lists, maps and structures. A value of another shape
is refused where it starts: a scalar after it has been read, a list or map at
its bracket.
-/

namespace RecordSearch.Json

open Text (isDigit)

/-! ## The value that was found -/

def Found.ofNumber : Number → Found
  | .natural n => .integer n.toNat
  | .negative m => .integer (Int.negSucc m)
  | .real x => .real x

def Found.ofJson : Json → Found
  | .null => .null
  | .bool b => .bool b
  | .number n => .ofNumber n
  | .string s => .string s
  | .array _ => .sequence
  | .object _ => .map

def refuse {α : Type} (expected : String) (s : Bytes) : Except Failure α :=
  match skipBlanks s with
  | [] => failAt .endInValue []
  | b :: t =>
    if b = 91 then failAt (.wrongType .sequence expected) (b :: t)
    else if b = 123 then failAt (.wrongType .map expected) (b :: t)
    else
      match scalarOr (failAt (.wrongType .sequence expected)) (b :: t) with
      | .error e => .error e
      | .ok (v, u) => failAt (.wrongType (.ofJson v) expected) u

/-! ## Scalars -/

def stringAs (expected : String) (s : Bytes) : Outcome String :=
  match skipBlanks s with
  | 34 :: t => stringTail t
  | u => refuse expected u

def anyText : Bytes → Outcome String := stringAs "a string"

def anyTextOrNull (s : Bytes) : Outcome (Option String) :=
  match skipBlanks s with
  | 110 :: t => (word ['u', 'l', 'l'] t).map fun u => (none, u)
  | u => (anyText u).map fun r => (some r.1, r.2)

/-- The number as one from 0 to 2^64 - 1, or why it is none. -/
def Number.naturalOf (expected : String) : Number → Except Fault UInt64
  | .natural n => .ok n
  | .negative m => .error (.wrongValue (.integer (Int.negSucc m)) expected)
  | .real x => .error (.wrongType (.real x) expected)

def natural (expected : String) (s : Bytes) : Outcome UInt64 :=
  match skipBlanks s with
  | b :: t =>
    if b = 45 || isDigit b then
      match (if b = 45 then numeral true t else numeral false (b :: t)) with
      | .error e => .error e
      | .ok (n, u) =>
        match Number.naturalOf expected n with
        | .ok v => .ok (v, u)
        | .error fault => failAt fault u
    else refuse expected (b :: t)
  | [] => failAt .endInValue []

/-! ## Lists and maps -/

/-- Opens a list or map of one more level, if `b` opens it and the depth allows. -/
def opened {α : Type} (b : UInt8) (depth : Nat) (inner : Nat → Bytes → Outcome α)
    (otherwise : Bytes → Outcome α) (s : Bytes) : Outcome α :=
  match skipBlanks s with
  | [] => failAt .endInValue []
  | c :: t =>
    if c = b then
      match depth with
      | 0 => failAfter .tooDeep (c :: t)
      | d + 1 => inner d t
    else otherwise (c :: t)

def listOf {α : Type} (fuel : Nat) (item : Nat → Bytes → Outcome α) (depth : Nat) (s : Bytes) :
    Outcome (List α) :=
  opened 91 depth (fun d => items (item d) fuel) (refuse "a sequence") s

def mapOf {α : Type} (fuel : Nat) (value : Nat → Bytes → Outcome α) (depth : Nat) (s : Bytes) :
    Outcome (List (String × α)) :=
  opened 123 depth (fun d => members (value d) fuel) (refuse "a map") s

/-! ## Structures

A structure is read from a map of its fields, in any order, or from a list of
their values in order. Fields of other names are skipped. -/

/-- A way to read one field of a structure under construction. -/
structure FieldReader (σ : Type) where
  name : String
  isSet : σ → Bool
  read : Nat → σ → Bytes → Outcome σ

/-- How to read a structure: its fields in order, where construction starts, and
how it ends. `finish` is told the fault to report for a field that is missing,
by place and name. -/
structure StructReader (σ τ : Type) where
  name : String
  fields : List (FieldReader σ)
  start : σ
  finish : (Nat → String → Fault) → σ → Except Fault τ

def required {α : Type} (lack : Fault) : Option α → Except Fault α
  | some x => .ok x
  | none => .error lack

def structMember {σ : Type} (fuel depth : Nat) (fields : List (FieldReader σ)) (state : σ)
    (key : String) (s : Bytes) : Outcome σ :=
  match fields.find? fun f => f.name == key with
  | some f =>
    if f.isSet state then failAt (.duplicateField f.name) s
    else valueOf key (f.read depth state) s
  | none => valueOf key (fun t => (skipValue fuel t).map fun u => (state, u)) s

/-- Ends a list all of whose items have been read. -/
def endItems (s : Bytes) : Except Failure Bytes :=
  match skipBlanks s with
  | [] => failAt .endInList []
  | b :: t =>
    if b = 93 then .ok t
    else if b = 44 then
      match skipBlanks t with
      | 93 :: u => failAfter .trailingComma (93 :: u)
      | u => failAfter .trailingText u
    else failAfter .trailingText (b :: t)

/-- Reads the values of the fields in order; `i` have been read. -/
def structItems {σ : Type} (depth : Nat) :
    Nat → List (FieldReader σ) → σ → Bytes → Outcome σ
  | _, [], state, s => (endItems s).map fun t => (state, t)
  | i, f :: rest, state, s =>
    match nextItem (i == 0) s with
    | .error e => .error e
    | .ok (.closed t) => .ok (state, t)
    | .ok (.more t) =>
      match within (.index i) (f.read depth state t) with
      | .error e => .error e
      | .ok (state, u) => structItems depth (i + 1) rest state u

def countOf (n : Nat) (noun : String) : String :=
  if n = 1 then s!"1 {noun}" else s!"{n} {noun}s"

def finished {σ τ : Type} (r : StructReader σ τ) (lack : Nat → String → Fault) :
    Outcome σ → Outcome τ
  | .error e => .error e
  | .ok (state, s) =>
    match r.finish lack state with
    | .ok x => .ok (x, s)
    | .error fault => failAt fault s

def structOf {σ τ : Type} (r : StructReader σ τ) (fuel depth : Nat) (s : Bytes) : Outcome τ :=
  let expected := s!"struct {r.name}"
  let count := countOf r.fields.length "element"
  opened 123 depth
    (fun d t =>
      finished r (fun _ name => .missingField name)
        (membersFrom (structMember fuel d r.fields) fuel true r.start t))
    (opened 91 depth
      (fun d t =>
        finished r (fun i _ => .wrongLength i s!"{expected} with {count}")
          (structItems d 0 r.fields r.start t))
      (refuse expected))
    s

end RecordSearch.Json
