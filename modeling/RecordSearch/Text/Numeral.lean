/-!
# Numerals

Whole numbers as texts, read from left to right. A text is refused at the first
character that is no digit, or that makes the value too large for its width.
-/

namespace RecordSearch.Text

/-- The value of decimal digits below a limit, read from left to right. -/
def digitsBelow (limit : Nat) (tooLarge : String) (n : Nat) : List Char → Except String Nat
  | [] => .ok n
  | c :: rest =>
    if c.isDigit then
      let m := 10 * n + (c.toNat - 48)
      if m < limit then digitsBelow limit tooLarge m rest else .error tooLarge
    else .error "invalid digit found in string"

def tooLarge : String := "number too large to fit in target type"

def natural64 (value : String) : Except String Nat :=
  match value.toList with
  | [] => .error "cannot parse integer from empty string"
  | ['+'] => .error "invalid digit found in string"
  | '+' :: ds => digitsBelow UInt64.size tooLarge 0 ds
  | ds => digitsBelow UInt64.size tooLarge 0 ds

end RecordSearch.Text
