/-!
# Cutting a text

A text is cut at its first separator, or freed of what is blank at its ends.
-/

namespace RecordSearch.Text

/-- The parts before and after the first separator; none if there is no separator. -/
def splitFirst? {α : Type} [DecidableEq α] (sep : α) (s : List α) : Option (List α × List α) :=
  match s.dropWhile (· ≠ sep) with
  | [] => none
  | _ :: after => some (s.takeWhile (· ≠ sep), after)

def trim {α : Type} (blank : α → Bool) (s : List α) : List α :=
  ((s.dropWhile blank).reverse.dropWhile blank).reverse

end RecordSearch.Text
