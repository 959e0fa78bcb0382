import RecordSearch.Json
import RecordSearch.Json.Fault
import RecordSearch.Text.Digits

/-!
# Reading JSON

Strict JSON over bytes: four blanks, no comments, no leading zeros. Reading
stops at the first fault in the order of the text. At most `maxDepth` arrays and
objects may be open at once.
-/

namespace RecordSearch.Json

open Text (isDigit digitsValue hexValue?)

def maxDepth : Nat := 127

/-! ## Blanks and words -/

def isBlank (b : UInt8) : Bool := b == 32 || b == 9 || b == 10 || b == 13

def skipBlanks : Bytes → Bytes
  | [] => []
  | b :: s => if isBlank b then skipBlanks s else b :: s

/-- Reads the rest of a word whose first letter has been read. -/
def word : List Char → Bytes → Except Failure Bytes
  | [], s => .ok s
  | _ :: _, [] => failAt .endInValue []
  | c :: cs, b :: s => if b.toNat = c.toNat then word cs s else failAt .expectedWord s

/-! ## Numbers -/

/-- The digits before the point: no zero leads others. -/
def wholePart (s : Bytes) : Outcome Bytes :=
  match s with
  | [] => failAt .endInValue []
  | b :: t =>
    if b = 48 then
      match t with
      | c :: _ => if isDigit c then failAfter .invalidNumber t else .ok ([b], t)
      | [] => .ok ([b], t)
    else if isDigit b then .ok (s.takeWhile isDigit, s.dropWhile isDigit)
    else failAt .invalidNumber t

def fractionPart (s : Bytes) : Outcome (Option Bytes) :=
  match s with
  | 46 :: t =>
    match t.takeWhile isDigit with
    | [] => if t.isEmpty then failAt .endInValue [] else failAfter .invalidNumber t
    | ds => .ok (some ds, t.dropWhile isDigit)
  | _ => .ok (none, s)

structure Exponent where
  negative : Bool
  digits : Bytes

def Exponent.value (e : Exponent) : Int :=
  if e.negative then -(digitsValue e.digits : Int) else digitsValue e.digits

/-- A sign, if there is one: whether it is a minus, and the bytes after it. -/
def signPart : Bytes → Bool × Bytes
  | 43 :: s => (false, s)
  | 45 :: s => (true, s)
  | s => (false, s)

def exponentPart (s : Bytes) : Outcome (Option Exponent) :=
  match s with
  | b :: t =>
    if b = 101 || b = 69 then
      let (negative, u) := signPart t
      match u with
      | [] => failAt .endInValue []
      | c :: v =>
        if isDigit c then
          .ok (some ⟨negative, u.takeWhile isDigit⟩, u.dropWhile isDigit)
        else failAt .invalidNumber v
    else .ok (none, s)
  | [] => .ok (none, s)

def maxExponent : Nat := 2147483647

/-- How many digits it takes to pass the largest exponent. -/
def digitsPast (value count : Nat) : Bytes → Nat
  | [] => count
  | b :: ds =>
    let v := 10 * value + (b.toNat - 48)
    if maxExponent < v then count + 1 else digitsPast v (count + 1) ds

/-- A number written with a fraction or an exponent, or too large for an integer,
rounded to nearest: the digits that are written of a number read back as it. -/
def realNumber (negative : Bool) (whole fraction : Bytes) (exponent : Option Exponent)
    (s : Bytes) : Outcome Number :=
  let digits := digitsValue (whole ++ fraction)
  let power : Int := (exponent.map Exponent.value).getD 0
  match Binary64.ofDecimal? negative digits (power - fraction.length) with
  | some x => .ok (.real x, s)
  | none =>
    -- a huge exponent is given up at the digit that makes it so
    match exponent with
    | some e => failAt .numberOutOfRange (e.digits.drop (digitsPast 0 0 e.digits) ++ s)
    | none => failAt .numberOutOfRange s

def wholeNumber? (negative : Bool) (n : Nat) : Option Number :=
  if negative then
    match n with
    | 0 => none
    | m + 1 => Number.ofInt? (Int.negSucc m)
  else Number.ofNat? n

def numeral (negative : Bool) (s : Bytes) : Outcome Number :=
  match wholePart s with
  | .error e => .error e
  | .ok (whole, s) =>
    match fractionPart s with
    | .error e => .error e
    | .ok (fraction, s) =>
      match exponentPart s with
      | .error e => .error e
      | .ok (exponent, s) =>
        if fraction.isNone && exponent.isNone then
          match wholeNumber? negative (digitsValue whole) with
          | some n => .ok (n, s)
          | none => realNumber negative whole [] none s
        else realNumber negative whole (fraction.getD []) exponent s

/-! ## Strings -/

def hexFour (s : Bytes) : Outcome Nat :=
  match s with
  | a :: b :: c :: d :: t =>
    match hexValue? a, hexValue? b, hexValue? c, hexValue? d with
    | some a, some b, some c, some d => .ok (((a * 16 + b) * 16 + c) * 16 + d, t)
    | _, _, _, _ => failAt .invalidEscape t
  | _ => failAt .endInString []

def isHighSurrogate (n : Nat) : Bool := 0xD800 ≤ n && n ≤ 0xDBFF

def isLowSurrogate (n : Nat) : Bool := 0xDC00 ≤ n && n ≤ 0xDFFF

/-- Reads the code point of an escape whose `\u` has been read. A high surrogate
needs a low one in a second escape. -/
def unicodeEscape (s : Bytes) : Outcome Char :=
  match hexFour s with
  | .error e => .error e
  | .ok (n, s) =>
    if isLowSurrogate n then failAt .loneSurrogate s
    else if isHighSurrogate n then
      match s with
      | [] => failAt .endInString []
      | 92 :: s =>
        match s with
        | [] => failAt .endInString []
        | 117 :: s =>
          match hexFour s with
          | .error e => .error e
          | .ok (m, s) =>
            if isLowSurrogate m then
              .ok (Char.ofNat (0x10000 + (n - 0xD800) * 0x400 + (m - 0xDC00)), s)
            else failAt .loneSurrogate s
        | _ :: s => failAt .endOfHexEscape s
      | _ :: s => failAt .endOfHexEscape s
    else .ok (Char.ofNat n, s)

def escape (s : Bytes) : Outcome Char :=
  match s with
  | [] => failAt .endInString []
  | 34 :: s => .ok ('"', s)
  | 92 :: s => .ok ('\\', s)
  | 47 :: s => .ok ('/', s)
  | 98 :: s => .ok ('\x08', s)
  | 102 :: s => .ok ('\x0c', s)
  | 110 :: s => .ok ('\n', s)
  | 114 :: s => .ok ('\r', s)
  | 116 :: s => .ok ('\t', s)
  | 117 :: s => unicodeEscape s
  | _ :: s => failAt .invalidEscape s

theorem hexFour_length {s t : Bytes} {n : Nat} (h : hexFour s = .ok (n, t)) :
    t.length ≤ s.length := by
  unfold hexFour at h
  repeat' split at h
  all_goals simp_all [failAt]
  omega

theorem unicodeEscape_length {s t : Bytes} {c : Char} (h : unicodeEscape s = .ok (c, t)) :
    t.length ≤ s.length := by
  unfold unicodeEscape at h
  split at h
  · cases h
  next n u hu =>
    have := hexFour_length hu
    repeat' split at h
    all_goals simp_all only [failAt, Except.ok.injEq, Prod.mk.injEq, List.length_cons, reduceCtorEq]
    all_goals
      first
        | omega
        | have hlow := hexFour_length ‹hexFour _ = _›
          omega

theorem escape_length {s t : Bytes} {c : Char} (h : escape s = .ok (c, t)) :
    t.length < s.length := by
  unfold escape at h
  split at h
  all_goals first
    | have hu := unicodeEscape_length h
      simp only [List.length_cons]
      omega
    | simp_all [failAt]

/-- What follows the first byte that is no UTF-8. -/
def afterBad (s : Bytes) : Bytes :=
  match Utf8.decode s with
  | .ok _ => []
  | .error e => s.drop (e.validUpTo + 1)

/-- Reads a string on to its closing quote; `acc` holds its bytes so far, last
first, and `whole` begins where the string does. Its bytes are looked at as
UTF-8 when the end is reached. -/
def stringFrom (whole acc : Bytes) (s : Bytes) : Outcome String :=
  match s with
  | [] => failAt .endInString []
  | b :: t =>
    if b = 34 then
      match Utf8.toString? acc.reverse with
      | .ok text => .ok (text, t)
      | .error _ => failAt .invalidUtf8 (afterBad whole)
    else if b = 92 then
      match h : escape t with
      | .error e => .error e
      | .ok (c, u) =>
        have := escape_length h
        stringFrom whole ((String.utf8EncodeChar c).reverse ++ acc) u
    else if b < 32 then failAt .controlCharacter t
    else stringFrom whole (b :: acc) t
termination_by s.length
decreasing_by all_goals (simp only [List.length_cons] at *; omega)

def stringTail (s : Bytes) : Outcome String := stringFrom s [] s

/-! ## Lists of items and members -/

inductive Next where
  | more (s : Bytes)
  | closed (rest : Bytes)

/-- Goes to the next item of an array, or past its end. -/
def nextItem (first : Bool) (s : Bytes) : Except Failure Next :=
  match skipBlanks s with
  | [] => failAt .endInList []
  | b :: t =>
    if b = 93 then .ok (.closed t)
    else if first then .ok (.more (b :: t))
    else if b = 44 then
      match skipBlanks t with
      | [] => failAt .endInValue []
      | c :: u => if c = 93 then failAfter .trailingComma (c :: u) else .ok (.more (c :: u))
    else failAfter .expectedItemEnd (b :: t)

/-- Goes past the opening quote of the next key of an object, or past its end. -/
def nextKey (first : Bool) (s : Bytes) : Except Failure Next :=
  match skipBlanks s with
  | [] => failAt .endInObject []
  | b :: t =>
    if b = 125 then .ok (.closed t)
    else if first then
      if b = 34 then .ok (.more t) else failAfter .keyNotString (b :: t)
    else if b = 44 then
      match skipBlanks t with
      | [] => failAt .endInValue []
      | c :: u =>
        if c = 34 then .ok (.more u)
        else if c = 125 then failAfter .trailingComma (c :: u)
        else failAfter .keyNotString (c :: u)
    else failAfter .expectedMemberEnd (b :: t)

def colon (s : Bytes) : Except Failure Bytes :=
  match skipBlanks s with
  | [] => failAt .endInObject []
  | b :: t => if b = 58 then .ok t else failAfter .expectedColon (b :: t)

/-- Reads items to the end of an array; `acc` holds those read, last first. The
fuel bounds their number. -/
def itemsFrom {α : Type} (item : Bytes → Outcome α) :
    Nat → Nat → List α → Bytes → Outcome (List α)
  | 0, _, _, s => failAt .endInList s
  | fuel + 1, i, acc, s =>
    match nextItem (i == 0) s with
    | .error e => .error e
    | .ok (.closed t) => .ok (acc.reverse, t)
    | .ok (.more t) =>
      match within (.index i) (item t) with
      | .error e => .error e
      | .ok (x, u) => itemsFrom item fuel (i + 1) (x :: acc) u

def items {α : Type} (item : Bytes → Outcome α) (fuel : Nat) (s : Bytes) : Outcome (List α) :=
  itemsFrom item fuel 0 [] s

/-- Reads members to the end of an object. `entry` takes the state, the key and
the bytes after it, from the colon on. -/
def membersFrom {σ : Type} (entry : σ → String → Bytes → Outcome σ) :
    Nat → Bool → σ → Bytes → Outcome σ
  | 0, _, _, s => failAt .endInObject s
  | fuel + 1, first, state, s =>
    match within .unnamed (nextKey first s) with
    | .error e => .error e
    | .ok (.closed t) => .ok (state, t)
    | .ok (.more t) =>
      match within .unnamed (stringTail t) with
      | .error e => .error e
      | .ok (key, u) =>
        match entry state key u with
        | .error e => .error e
        | .ok (state, v) => membersFrom entry fuel false state v

/-- Reads the value of a key, from the colon on. -/
def valueOf {α : Type} (key : String) (value : Bytes → Outcome α) (s : Bytes) : Outcome α :=
  match colon s with
  | .error e => .error e
  | .ok t => within (.key key) (value t)

def members {α : Type} (value : Bytes → Outcome α) (fuel : Nat) (s : Bytes) :
    Outcome (List (String × α)) :=
  match membersFrom (fun acc key s =>
      match valueOf key value s with
      | .error e => .error e
      | .ok (v, t) => .ok ((key, v) :: acc, t)) fuel true [] s with
  | .error e => .error e
  | .ok (acc, t) => .ok (acc.reverse, t)

/-! ## Values -/

/-- Reads a value; `nested` reads an array or object from its bracket on. -/
def scalarOr (nested : Bytes → Outcome Json) (s : Bytes) : Outcome Json :=
  match skipBlanks s with
  | [] => failAt .endInValue []
  | b :: t =>
    if b = 110 then (word ['u', 'l', 'l'] t).map fun u => (.null, u)
    else if b = 116 then (word ['r', 'u', 'e'] t).map fun u => (.bool true, u)
    else if b = 102 then (word ['a', 'l', 's', 'e'] t).map fun u => (.bool false, u)
    else if b = 45 then (numeral true t).map fun r => (.number r.1, r.2)
    else if isDigit b then (numeral false (b :: t)).map fun r => (.number r.1, r.2)
    else if b = 34 then (stringTail t).map fun r => (.string r.1, r.2)
    else if b = 91 || b = 123 then nested (b :: t)
    else failAfter .expectedValue (b :: t)

/-- Reads a value in which at most `depth` arrays and objects are open at once. -/
def value (fuel : Nat) : Nat → Bytes → Outcome Json
  | 0 => scalarOr (failAfter .tooDeep)
  | depth + 1 => scalarOr fun s =>
    match s with
    | [] => failAt .endInValue []
    | b :: t =>
      if b = 91 then (items (value fuel depth) fuel t).map fun r => (.array r.1, r.2)
      else (members (value fuel depth) fuel t).map fun r => (.object r.1, r.2)

/-! ## Whole texts -/

/-- More steps than any reading of the bytes takes. -/
def fuelFor (s : Bytes) : Nat := s.length + 1

def complete {α : Type} (r : Outcome α) : Except Failure α :=
  match r with
  | .error e => .error e
  | .ok (x, t) =>
    match skipBlanks t with
    | [] => .ok x
    | u => failAfter .trailingText u

def parse (s : Bytes) : Except Failure Json := complete (value (fuelFor s) maxDepth s)

end RecordSearch.Json
