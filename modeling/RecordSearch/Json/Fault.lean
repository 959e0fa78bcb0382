import RecordSearch.Binary64.Shortest
import RecordSearch.Text.Quoted
import RecordSearch.Text.Utf8

/-!
# What can be wrong with a JSON text

The causes for which a text cannot be read, with their wording, and the place
where the reader stood: the bytes still to come and the way down to the value
being read.
-/

namespace RecordSearch.Json

/-! ## Causes -/

/-- A value of the wrong kind, as far as a message names it. -/
inductive Found where
  | null
  | bool (b : Bool)
  | integer (n : Int)
  | real (x : Binary64)
  | string (s : String)
  | sequence
  | map

def Found.text : Found → String
  | .null => "null"
  | .bool b => s!"boolean `{b}`"
  | .integer n => s!"integer `{n}`"
  | .real x => s!"floating point `{x.text}`"
  | .string s => s!"string {Text.quoted s}"
  | .sequence => "sequence"
  | .map => "map"

/-- Why a text cannot be read: it ends too early, it breaks the grammar, or it
is not of the shape asked for. -/
inductive Fault where
  | endInValue
  | endInObject
  | endInList
  | endInString
  | expectedValue
  | expectedWord
  | expectedColon
  | expectedMemberEnd
  | expectedItemEnd
  | keyNotString
  | trailingComma
  | trailingText
  | invalidNumber
  | numberOutOfRange
  | invalidEscape
  | controlCharacter
  | endOfHexEscape
  | loneSurrogate
  | invalidUtf8
  | tooDeep
  | wrongType (found : Found) (expected : String)
  | wrongValue (found : Found) (expected : String)
  | wrongLength (length : Nat) (expected : String)
  | missingField (name : String)
  | duplicateField (name : String)
  | unknownVariant (name : String) (known : List String)
  | noVariant (type : String)

inductive Fault.Kind where
  | ends
  | grammar
  | shape
deriving DecidableEq

namespace Fault

def kind : Fault → Kind
  | .endInValue | .endInObject | .endInList | .endInString => .ends
  | .wrongType .. | .wrongValue .. | .wrongLength .. | .missingField .. | .duplicateField ..
  | .unknownVariant .. | .noVariant .. => .shape
  | _ => .grammar

def oneOf (names : List String) : String :=
  match names with
  | [] => "there are no variants"
  | [a] => s!"expected `{a}`"
  | [a, b] => s!"expected `{a}` or `{b}`"
  | _ => "expected one of " ++ ", ".intercalate (names.map fun n => s!"`{n}`")

def message : Fault → String
  | .endInValue => "EOF while parsing a value"
  | .endInObject => "EOF while parsing an object"
  | .endInList => "EOF while parsing a list"
  | .endInString => "EOF while parsing a string"
  | .expectedValue => "expected value"
  | .expectedWord => "expected ident"
  | .expectedColon => "expected `:`"
  | .expectedMemberEnd => "expected `,` or `\x7d`"
  | .expectedItemEnd => "expected `,` or `]`"
  | .keyNotString => "key must be a string"
  | .trailingComma => "trailing comma"
  | .trailingText => "trailing characters"
  | .invalidNumber => "invalid number"
  | .numberOutOfRange => "number out of range"
  | .invalidEscape => "invalid escape"
  | .controlCharacter => "control character (\\u0000-\\u001F) found while parsing a string"
  | .endOfHexEscape => "unexpected end of hex escape"
  | .loneSurrogate => "lone leading surrogate in hex escape"
  | .invalidUtf8 => "invalid unicode code point"
  | .tooDeep => "recursion limit exceeded"
  | .wrongType found expected => s!"invalid type: {found.text}, expected {expected}"
  | .wrongValue found expected => s!"invalid value: {found.text}, expected {expected}"
  | .wrongLength length expected => s!"invalid length {length}, expected {expected}"
  | .missingField name => s!"missing field `{name}`"
  | .duplicateField name => s!"duplicate field `{name}`"
  | .unknownVariant name known => s!"unknown variant `{name}`, {oneOf known}"
  | .noVariant type => s!"data did not match any variant of untagged enum {type}"

end Fault

/-! ## Places -/

inductive Step where
  | key (name : String)
  | index (i : Nat)
  /-- to a member whose key cannot be read -/
  | unnamed

def Step.isNamed : Step → Bool
  | .unnamed => false
  | _ => true

def pathFrom (first : Bool) : List Step → String
  | [] => ""
  | .key name :: rest => (if first then "" else ".") ++ name ++ pathFrom false rest
  | .index i :: rest => s!"[{i}]" ++ pathFrom false rest
  | .unnamed :: rest => (if first then "" else ".") ++ "?" ++ pathFrom false rest

/-- A fault, the bytes after the place where it was met, and the way from the
outermost value to the one being read. -/
structure Failure where
  fault : Fault
  rest : Bytes
  path : List Step

namespace Failure

def under (e : Failure) (s : Step) : Failure := ⟨e.fault, e.rest, s :: e.path⟩

/-- Line, from 1, and bytes into the line, at the end of a stretch of bytes. -/
def position (s : Bytes) : Nat × Nat :=
  s.foldl (fun (here : Nat × Nat) (b : UInt8) =>
    if b == 10 then (here.1 + 1, 0) else (here.1, here.2 + 1)) (1, 0)

/-- The message with the path and the position of a fault met in `input`. A path
without any key or index is left out. -/
def located (input : Bytes) (e : Failure) : String :=
  let (line, column) := position (input.take (input.length - e.rest.length))
  let path := if e.path.any Step.isNamed then pathFrom true e.path ++ ": " else ""
  s!"{path}{e.fault.message} at line {line} column {column}"

end Failure

/-! ## Outcomes -/

/-- What was read and the bytes after it, or why it could not be read. -/
abbrev Outcome (α : Type) := Except Failure (α × Bytes)

def failAt {α : Type} (fault : Fault) (s : Bytes) : Except Failure α := .error ⟨fault, s, []⟩

/-- Fails with the place after the next byte, the one that was not expected. -/
def failAfter {α : Type} (fault : Fault) (s : Bytes) : Except Failure α :=
  .error ⟨fault, s.drop 1, []⟩

def within {α : Type} (step : Step) : Except Failure α → Except Failure α
  | .ok x => .ok x
  | .error e => .error (e.under step)

end RecordSearch.Json
