import RecordSearch.Binary64

/-!
# Similar words

How alike two words are: the characters they share at nearly the same places,
and how many of these stand in another order. The likeness is reckoned in 64-bit
floating point, every step rounded.
-/

namespace RecordSearch.Text

/-- The matches of two words: which places of the first and of the second word
have partners. Characters are partners if they are equal and at most `reach`
places apart, the earliest free place being taken. -/
structure Matches where
  left : List Bool
  right : List Bool

def partner? (c : Char) (low high : Nat) (word : List Char) (taken : List Bool) : Option Nat :=
  (List.range high).find? fun j =>
    low ≤ j && word[j]? == some c && taken[j]? == some false

def matchesFrom (reach : Nat) (word : List Char) (i : Nat) (m : Matches) : List Char → Matches
  | [] => { m with left := m.left.reverse }
  | c :: rest =>
    match partner? c (i - reach) (min word.length (i + reach + 1)) word m.right with
    | some j => matchesFrom reach word (i + 1) ⟨true :: m.left, m.right.set j true⟩ rest
    | none => matchesFrom reach word (i + 1) ⟨false :: m.left, m.right⟩ rest

def matched (word : List Char) (flags : List Bool) : List Char :=
  ((word.zip flags).filter Prod.snd).map Prod.fst

/-- The similarity of two words, as the rank of a magnitude: one third of the sum
of the shares of matched characters and of the matches in order. -/
def similarity (a b : List Char) : Nat :=
  if a.isEmpty && b.isEmpty then Binary64.rankOfQuotient 1 1
  else
    let reach := max a.length b.length / 2 - 1
    let m := matchesFrom reach b 0 ⟨[], b.map fun _ => false⟩ a
    let left := matched a m.left
    let count := left.length
    if count = 0 then 0
    else
      let moved := ((left.zip (matched b m.right)).filter fun p => p.1 ≠ p.2).length / 2
      let shares := Binary64.rankOfSum (Binary64.rankOfQuotient count a.length)
        (Binary64.rankOfQuotient count b.length)
      let sum := Binary64.rankOfSum shares (Binary64.rankOfQuotient (count - moved) count)
      Binary64.rankOfPart sum 3

/-- Seven tenths; words are alike only above it. -/
def threshold : Nat := Binary64.rankOfDecimal 7 (-1)

/-- The known word most like a word, the last of several, if it is alike. -/
def mostSimilar? (word : String) (known : List String) : Option String :=
  (known.foldl (fun (best : Option (String × Nat)) name =>
    let likeness := similarity word.toList name.toList
    if likeness ≤ threshold then best
    else
      match best with
      | some (_, most) => if likeness < most then best else some (name, likeness)
      | none => some (name, likeness)) none).map Prod.fst

end RecordSearch.Text
