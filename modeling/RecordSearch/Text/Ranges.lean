/-!
# Ranges of code points

A class of characters is given by the ranges of code points it consists of.
-/

namespace RecordSearch.Text

def within (table : List (Nat × Nat)) (n : Nat) : Bool :=
  table.any fun r => r.1 ≤ n && n ≤ r.2

end RecordSearch.Text
