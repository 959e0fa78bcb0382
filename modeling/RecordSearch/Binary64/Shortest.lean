import RecordSearch.Binary64

/-!
# The shortest text of a number

A number is written with the fewest digits that read back as the same number.
The search goes from coarse powers of ten to fine ones: the first grid of
multiples on which a neighbour of the number reads back gives the digits.
-/

namespace RecordSearch.Binary64

/-! ## Digits -/

/-- The multiples of `10 ^ exponent` next to a magnitude: the nearest first. -/
def neighbours (units : Nat) (exponent : Int) : List Nat :=
  let num := units * Nat.pow 10 (-exponent).toNat
  let den := unitsPerOne * Nat.pow 10 exponent.toNat
  let near := roundQuotient num den
  let down := num / den
  [near, if near = down then down + 1 else down]

/-- The neighbour on one grid that reads back as the rank, if one does. -/
def hit? (rank : Nat) (exponent : Int) : Option (Nat × Int) :=
  ((neighbours (unitsAt rank) exponent).find? fun d => rankOfDecimal d exponent == rank).map
    fun d => (d, exponent)

/-- An exponent above which no multiple of a power of ten is near the magnitude. -/
def coarsest (units : Nat) : Int :=
  let log : Int := (units.log2 : Int) - 1074
  if 0 ≤ log then (log + 1) * 31 / 100 + 1 else (log + 1) * 30 / 100 + 1

def exactDecimal (units : Nat) : Nat × Int := (units * Nat.pow 5 1074, -1074)

/-- The fewest digits `d` and the exponent `e` for which `d · 10 ^ e` reads back
as the rank. -/
def shortest (rank : Nat) : Nat × Int :=
  let top := coarsest (unitsAt rank)
  ((List.range 40).findSome? fun i => hit? rank (top - (i : Nat))).getD (exactDecimal (unitsAt rank))

/-! ## Text -/

def digitChars (n : Nat) : List Char := Nat.toDigits 10 n

/-- Decimal notation for a leading digit at 10^-5 to 10^15, always with a
fraction; scientific notation otherwise, a positive exponent with its sign. -/
def layOut (digits : List Char) (exponent : Int) : List Char :=
  let lead : Int := exponent + digits.length - 1
  if -5 ≤ lead ∧ lead ≤ 15 then
    if 0 ≤ exponent then digits ++ List.replicate exponent.toNat '0' ++ ['.', '0']
    else if 0 ≤ lead then
      digits.take (lead.toNat + 1) ++ '.' :: digits.drop (lead.toNat + 1)
    else ['0', '.'] ++ List.replicate ((-lead).toNat - 1) '0' ++ digits
  else
    let fraction := digits.drop 1
    digits.take 1 ++ (if fraction.isEmpty then [] else '.' :: fraction) ++
      'e' :: (if 0 ≤ lead then '+' else '-') :: digitChars lead.natAbs

def chars (x : Binary64) : List Char :=
  let magnitude :=
    if x.rank.val = 0 then ['0', '.', '0']
    else
      let (d, e) := shortest x.rank
      layOut (digitChars d) e
  if x.negative then '-' :: magnitude else magnitude

def text (x : Binary64) : String := String.ofList x.chars

end RecordSearch.Binary64
