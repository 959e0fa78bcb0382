import RecordSearch.Text.CaseTable
import RecordSearch.Text.Ranges

/-!
# Lower case

The full lower-case form of a text. Characters map one by one but for two:
dotted capital I becomes two characters, and a capital sigma that ends a word
takes its final form.
-/

namespace RecordSearch.Text

/-! ## Classes -/

def isCased (c : Char) : Bool :=
  if c.toNat < 128 then c.isAlpha else within casedRanges c.toNat

/-- A character that may stand within a word without being one of its letters. -/
def isIgnorable (c : Char) : Bool :=
  if c.toNat < 128 then
    c = '\'' || c = '.' || c = ':' || c = '^' || c = '\x60'
  else within ignorableRanges c.toNat

def reachesLetter (s : List Char) : Bool :=
  match s.dropWhile isIgnorable with
  | [] => false
  | c :: _ => isCased c

/-! ## Mapping -/

def lowerChar (c : Char) : Char :=
  if c.toNat < 128 then c.toLower
  else
    match lowerRanges.find? (·.covers c.toNat) with
    | some r => Char.ofNat (r.lower c.toNat)
    | none => c

/-- The lower-case form of one character between the characters before it, last
first, and those after it. -/
def lowerAt (before : List Char) (c : Char) (after : List Char) : List Char :=
  if c = 'Σ' then
    if reachesLetter before && !reachesLetter after then ['ς'] else ['σ']
  else if c = 'İ' then ['i', '\u0307']
  else [lowerChar c]

def lowerFrom (before acc : List Char) : List Char → List Char
  | [] => acc.reverse
  | c :: after => lowerFrom (c :: before) ((lowerAt before c after).reverse ++ acc) after

def lowercase (s : String) : String := String.ofList (lowerFrom [] [] s.toList)

end RecordSearch.Text
