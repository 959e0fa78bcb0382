import RecordSearch.Text.Utf8
import RecordSearch.Upload.Content

/-!
# Tables in CSV

Cells are separated by commas and records by line ends, of whichever kind; empty
lines count for nothing. A cell that starts with a quote runs to the next single
quote, and what then follows up to a comma or line end belongs to it as it
stands. The first record names the columns.
-/

namespace RecordSearch.Csv

/-! ## Records -/

/-- A place in the input: bytes from 0 and lines, told by line feeds, from 1. -/
structure Place where
  byte : Nat
  line : Nat
deriving DecidableEq, Repr

/-- A record and the place just after the line end that ended the one before. -/
structure Located where
  place : Place
  cells : List Bytes

inductive Mode where
  /-- before a record, among empty lines -/
  | idle
  /-- at the start of a cell -/
  | cellStart
  /-- in a cell without quotes, or after its closing quote -/
  | bare
  /-- between quotes -/
  | quoted
  /-- after a quote that may close or stand for itself -/
  | quoteSeen
deriving DecidableEq, Repr

/-- The reader between two bytes. The current cell, the current record and the
records read are kept with the last part first. -/
structure Reader where
  mode : Mode
  cell : Bytes
  cells : List Bytes
  records : List Located
  start : Place
  here : Place

namespace Reader

def endCell (r : Reader) : Reader :=
  { r with mode := .cellStart, cell := [], cells := r.cell.reverse :: r.cells }

def endRecord (r : Reader) : Reader :=
  { r with
    mode := .idle
    cell := []
    cells := []
    records := ⟨r.start, (r.cell.reverse :: r.cells).reverse⟩ :: r.records
    start := r.here }

def add (r : Reader) (mode : Mode) (b : UInt8) : Reader :=
  { r with mode := mode, cell := b :: r.cell }

def isLineEnd (b : UInt8) : Bool := b == 10 || b == 13

def advance (p : Place) (b : UInt8) : Place :=
  ⟨p.byte + 1, if b == 10 then p.line + 1 else p.line⟩

def plain (r : Reader) (b : UInt8) : Reader :=
  if b == 44 then r.endCell
  else if isLineEnd b then r.endRecord
  else r.add .bare b

def take (r : Reader) (b : UInt8) : Reader :=
  match r.mode with
  | .idle =>
    if isLineEnd b then r
    else if b == 34 then { r with mode := .quoted }
    else r.plain b
  | .cellStart => if b == 34 then { r with mode := .quoted } else r.plain b
  | .bare => r.plain b
  | .quoted => if b == 34 then { r with mode := .quoteSeen } else r.add .quoted b
  | .quoteSeen => if b == 34 then r.add .quoted b else r.plain b

def step (r : Reader) (b : UInt8) : Reader :=
  take { r with here := advance r.here b } b

def finish (r : Reader) : List Located :=
  match r.mode with
  | .idle => r.records.reverse
  | _ => r.endRecord.records.reverse

def initial (here : Place) : Reader := ⟨.idle, [], [], [], ⟨0, 1⟩, here⟩

end Reader

/-- All records of the input; a byte order mark at its start is no part of them. -/
def records (s : Bytes) : List Located :=
  match s with
  | 0xEF :: 0xBB :: 0xBF :: rest => (rest.foldl Reader.step (Reader.initial ⟨3, 1⟩)).finish
  | _ => (s.foldl Reader.step (Reader.initial ⟨0, 1⟩)).finish

/-! ## Texts -/

/-- A cell that is not UTF-8: the number of its record, the header's being 0,
where that record was looked for, the number of the cell, and the length of the
cell's valid beginning. -/
structure Fault where
  record : Nat
  place : Place
  field : Nat
  validUpTo : Nat
deriving DecidableEq, Repr

def Fault.message (e : Fault) : String :=
  s!"CSV parse error: record {e.record} (line {e.place.line}, field: {e.field}, " ++
    s!"byte: {e.place.byte}): invalid utf-8: invalid UTF-8 in field {e.field} " ++
    s!"near byte index {e.validUpTo}"

def cellTexts (record : Nat) (place : Place) (field : Nat) (acc : List String) :
    List Bytes → Except Fault (List String)
  | [] => .ok acc.reverse
  | c :: rest =>
    match Utf8.toString? c with
    | .ok t => cellTexts record place (field + 1) (t :: acc) rest
    | .error e => .error ⟨record, place, field, e.validUpTo⟩

def recordTexts (record : Nat) (acc : List (List String)) :
    List Located → Except Fault (List (List String))
  | [] => .ok acc.reverse
  | r :: rest =>
    match cellTexts record r.place 0 [] r.cells with
    | .ok ts => recordTexts (record + 1) (ts :: acc) rest
    | .error e => .error e

/-! ## Rows -/

def row (header cells : List String) : Row := Fields.ofList (header.zip cells)

def table : List (List String) → List Row
  | [] => []
  | header :: rest => rest.map (row header)

def rows (s : Bytes) : Except Fault (List Row) := (recordTexts 0 [] (records s)).map table

end RecordSearch.Csv
