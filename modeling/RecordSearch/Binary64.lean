/-!
# Finite 64-bit floating point numbers

The finite magnitudes form a ladder: a magnitude is known by its rank on it, and
the rank is also its bit pattern. Every magnitude is a whole number of units of
2^-1074, so numbers are compared and rounded in natural arithmetic.
-/

namespace RecordSearch

/-- A finite number: its sign and the rank of its magnitude. Zero has two signs. -/
structure Binary64 where
  negative : Bool
  rank : Fin 0x7FF0000000000000
deriving DecidableEq, Repr

namespace Binary64

instance : Inhabited Binary64 := ⟨⟨false, 0⟩⟩

/-- The number of ranks; a rounding that reaches it has left the finite numbers. -/
def rankCount : Nat := 0x7FF0000000000000

/-- The units of 2^-1074 in one whole. -/
def unitsPerOne : Nat := 1 <<< 1074

/-! ## Magnitudes in units -/

def stretchLength : Nat := 0x10000000000000

/-- Within a stretch the steps are equal; each stretch after the second doubles
them. -/
def unitsAt (rank : Nat) : Nat :=
  let doublings := rank / stretchLength - 1
  (rank - doublings * stretchLength) <<< doublings

def units (x : Binary64) : Nat := unitsAt x.rank

def signedUnits (x : Binary64) : Int := if x.negative then -x.units else x.units

/-- Equal as numbers: the two zeros are equal. -/
def equal (x y : Binary64) : Bool := x.signedUnits == y.signedUnits

/-! ## Rounding -/

/-- The whole number nearest to a quotient; a half goes to the even one. -/
def roundQuotient (num den : Nat) : Nat :=
  let q := num / den
  let twice := 2 * (num % den)
  if twice < den then q
  else if den < twice then q + 1
  else if q % 2 = 0 then q else q + 1

/-- The rank nearest to `num / den` units, a half going to the even rank. -/
def nearestRank (num den : Nat) : Nat :=
  let doublings := (num / den).log2 - 52
  doublings * stretchLength + roundQuotient num (den <<< doublings)

def ofRank? (negative : Bool) (rank : Nat) : Option Binary64 :=
  if h : rank < 0x7FF0000000000000 then some ⟨negative, ⟨rank, h⟩⟩ else none

def rankOfNat (n : Nat) : Nat := nearestRank (n * unitsPerOne) 1

def rankOfQuotient (num den : Nat) : Nat := nearestRank (num * unitsPerOne) den

def rankOfSum (x y : Nat) : Nat := nearestRank (unitsAt x + unitsAt y) 1

def rankOfPart (x n : Nat) : Nat := nearestRank (unitsAt x) n

def ofInt? (n : Int) : Option Binary64 := ofRank? (n < 0) (rankOfNat n.natAbs)

/-- The rank nearest to `digits · 10 ^ exponent`. -/
def rankOfDecimal (digits : Nat) (exponent : Int) : Nat :=
  if digits = 0 then 0
  else if 400 < exponent then rankCount
  else if exponent < 0 ∧ digits.log2 + 1200 < 3 * exponent.natAbs then 0
  else
    nearestRank (digits * Nat.pow 10 exponent.toNat * unitsPerOne)
      (Nat.pow 10 (-exponent).toNat)

def ofDecimal? (negative : Bool) (digits : Nat) (exponent : Int) : Option Binary64 :=
  ofRank? negative (rankOfDecimal digits exponent)

end Binary64

end RecordSearch
