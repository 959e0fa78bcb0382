import RecordSearch.Text.Digits
import RecordSearch.Text.Split

/-!
# Percent-encoding

`%` and two hexadecimal digits stand for a byte; a `%` that no such digits
follow stands for itself. In a form a plus sign stands for a space.
-/

namespace RecordSearch.Percent

def escaped? (b c d : UInt8) : Option UInt8 :=
  if b == 37 then
    match Text.hexValue? c, Text.hexValue? d with
    | some x, some y => some (UInt8.ofNat (x * 16 + y))
    | _, _ => none
  else none

def decode : Bytes → Bytes
  | b :: c :: d :: s =>
    match escaped? b c d with
    | some x => x :: decode s
    | none => b :: decode (c :: d :: s)
  | s => s

/-! ## Forms -/

/-- One name or value of a form; bytes that are not UTF-8 are replaced. -/
def formText (s : Bytes) : String :=
  String.ofList (Utf8.decodeLossy (decode (s.map fun b => if b == 43 then 32 else b)))

/-- A name and its value, which is empty if no equals sign stands between them. -/
def formField (s : Bytes) : String × String :=
  match Text.splitFirst? 61 s with
  | some (name, value) => (formText name, formText value)
  | none => (formText s, "")

def formFields (s : Bytes) : List (String × String) :=
  ((s.splitOn 38).filter fun p => !p.isEmpty).map formField

end RecordSearch.Percent
