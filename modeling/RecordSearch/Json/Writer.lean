import RecordSearch.Json
import RecordSearch.Binary64.Shortest

/-!
# Writing JSON

Values are written without spaces. In a string only the quote, the backslash
and the characters below the space are escaped.
-/

namespace RecordSearch.Json

/-! ## Strings and numbers -/

def hexDigit (n : Nat) : Char := Nat.digitChar (n % 16)

def escapeChar (c : Char) : List Char :=
  if c = '"' then ['\\', '"']
  else if c = '\\' then ['\\', '\\']
  else if c = '\n' then ['\\', 'n']
  else if c = '\r' then ['\\', 'r']
  else if c = '\t' then ['\\', 't']
  else if c.toNat = 8 then ['\\', 'b']
  else if c.toNat = 12 then ['\\', 'f']
  else if c.toNat < 32 then
    ['\\', 'u', '0', '0', hexDigit (c.toNat / 16), hexDigit c.toNat]
  else [c]

def quote (s : String) : List Char :=
  '"' :: (s.toList.flatMap escapeChar ++ ['"'])

def numberChars : Number → List Char
  | .natural n => Nat.toDigits 10 n.toNat
  | .negative m => '-' :: Nat.toDigits 10 (m + 1)
  | .real x => x.chars

/-! ## Lists -/

def separated : List (List Char) → List Char
  | [] => []
  | [x] => x
  | x :: y :: rest => x ++ ',' :: separated (y :: rest)

def bracketed (items : List (List Char)) : List Char := '[' :: (separated items ++ [']'])

def member (name : String) (value : List Char) : List Char := quote name ++ ':' :: value

def braced (members : List (List Char)) : List Char := '{' :: (separated members ++ ['}'])

/-! ## Values -/

mutual

def chars : Json → List Char
  | .null => ['n', 'u', 'l', 'l']
  | .bool true => ['t', 'r', 'u', 'e']
  | .bool false => ['f', 'a', 'l', 's', 'e']
  | .number n => numberChars n
  | .string s => quote s
  | .array items => bracketed (charsItems items)
  | .object members => braced (charsMembers members)

def charsItems : List Json → List (List Char)
  | [] => []
  | v :: rest => chars v :: charsItems rest

def charsMembers : List (String × Json) → List (List Char)
  | [] => []
  | (name, v) :: rest => member name (chars v) :: charsMembers rest

end

def text (v : Json) : String := String.ofList v.chars

end RecordSearch.Json
