import RecordSearch.Text.HiddenTable
import RecordSearch.Text.Ranges

/-!
# Quoted text

A text in double quotes for a message: quotes, backslashes and line ends are
escaped, and characters without a shape of their own are written by number.
-/

namespace RecordSearch.Text

def isHidden (c : Char) : Bool :=
  if 32 ≤ c.toNat && c.toNat < 127 then false
  else within hiddenLow c.toNat || within hiddenMiddle c.toNat || within hiddenHigh c.toNat

def hexChars (n : Nat) : List Char := Nat.toDigits 16 n

def quotedChar (c : Char) : List Char :=
  if c = '"' then ['\\', '"']
  else if c = '\\' then ['\\', '\\']
  else if c = '\n' then ['\\', 'n']
  else if c = '\r' then ['\\', 'r']
  else if c = '\t' then ['\\', 't']
  else if c.toNat = 0 then ['\\', '0']
  else if isHidden c then ['\\', 'u', '{'] ++ hexChars c.toNat ++ ['}']
  else [c]

def quoted (s : String) : String :=
  String.ofList ('"' :: (s.toList.flatMap quotedChar ++ ['"']))

end RecordSearch.Text
