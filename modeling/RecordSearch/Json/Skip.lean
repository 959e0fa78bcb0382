import RecordSearch.Json.Reader

/-!
# Skipping values

A member that nobody asks for is skipped. Skipping checks the grammar but not
the content: numbers may be of any size, surrogates may stand alone, and there
is no limit on the depth.
-/

namespace RecordSearch.Json

open Text (isDigit)

/-! ## Scalars -/

def skipWhole (s : Bytes) : Except Failure Bytes :=
  match s with
  | [] => failAt .invalidNumber []
  | b :: t =>
    if b = 48 then
      match t with
      | c :: _ => if isDigit c then failAfter .invalidNumber t else .ok t
      | [] => .ok t
    else if isDigit b then .ok (t.dropWhile isDigit)
    else failAt .invalidNumber t

def skipFraction (s : Bytes) : Except Failure Bytes :=
  match s with
  | 46 :: t =>
    match t with
    | c :: _ => if isDigit c then .ok (t.dropWhile isDigit) else failAfter .invalidNumber t
    | [] => failAfter .invalidNumber []
  | _ => .ok s

def skipExponent (s : Bytes) : Except Failure Bytes :=
  match s with
  | b :: t =>
    if b = 101 || b = 69 then
      match (signPart t).2 with
      | [] => failAt .invalidNumber []
      | c :: v => if isDigit c then .ok (v.dropWhile isDigit) else failAt .invalidNumber v
    else .ok s
  | [] => .ok s

def skipNumeral (s : Bytes) : Except Failure Bytes := do
  let s ← skipWhole s
  let s ← skipFraction s
  skipExponent s

def skipEscape (s : Bytes) : Except Failure Bytes :=
  match s with
  | [] => failAt .endInString []
  | 117 :: t => (hexFour t).map Prod.snd
  | b :: t =>
    if b = 34 || b = 92 || b = 47 || b = 98 || b = 102 || b = 110 || b = 114 || b = 116 then .ok t
    else failAt .invalidEscape t

theorem skipEscape_length {s t : Bytes} (h : skipEscape s = .ok t) : t.length < s.length := by
  unfold skipEscape at h
  split at h
  · cases h
  next u =>
    cases hu : hexFour u with
    | error e => simp [hu, Except.map] at h
    | ok r =>
      obtain ⟨n, v⟩ := r
      simp only [hu, Except.map, Except.ok.injEq] at h
      subst h
      have := hexFour_length hu
      simp only [List.length_cons]
      omega
  next b u _ =>
    split at h
    · cases h; simp
    · cases h

def skipString (s : Bytes) : Except Failure Bytes :=
  match s with
  | [] => failAt .endInString []
  | b :: t =>
    if b = 34 then .ok t
    else if b = 92 then
      match h : skipEscape t with
      | .error e => .error e
      | .ok u =>
        have := skipEscape_length h
        skipString u
    else if b < 32 then failAt .controlCharacter (b :: t)
    else skipString t
termination_by s.length
decreasing_by all_goals (simp only [List.length_cons] at *; omega)

def skipScalar (s : Bytes) : Except Failure Bytes :=
  match s with
  | [] => failAt .endInValue []
  | b :: t =>
    if b = 110 then word ['u', 'l', 'l'] t
    else if b = 116 then word ['r', 'u', 'e'] t
    else if b = 102 then word ['a', 'l', 's', 'e'] t
    else if b = 45 then skipNumeral t
    else if isDigit b then skipNumeral (b :: t)
    else if b = 34 then skipString t
    else failAfter .expectedValue (b :: t)

/-! ## Arrays and objects -/

inductive Frame where
  | array
  | object

def Frame.closing : Frame → UInt8
  | .array => 93
  | .object => 125

def Frame.cutShort : Frame → Fault
  | .array => .endInList
  | .object => .endInObject

def Frame.expectedEnd : Frame → Fault
  | .array => .expectedItemEnd
  | .object => .expectedMemberEnd

/-- Goes to the next value in a frame; in an object past its key. -/
def Frame.enter (f : Frame) (s : Bytes) : Except Failure Bytes :=
  match f with
  | .array => .ok s
  | .object =>
    match skipBlanks s with
    | [] => failAt .endInObject []
    | b :: t =>
      if b = 34 then
        match skipString t with
        | .error e => .error e
        | .ok u => colon u
      else failAfter .keyNotString (b :: t)

/-- Where skipping stands: before a value, or after one or after an opening
bracket, a comma being allowed or not. -/
inductive Stand where
  | before
  | after (comma : Bool)

def skipFrom : Nat → Stand → List Frame → Bytes → Except Failure Bytes
  | 0, _, _, s => failAt .endInValue s
  | fuel + 1, .before, frames, s =>
    match skipBlanks s with
    | [] => failAt .endInValue []
    | b :: t =>
      if b = 91 then skipFrom fuel (.after false) (.array :: frames) t
      else if b = 123 then skipFrom fuel (.after false) (.object :: frames) t
      else
        match skipScalar (b :: t) with
        | .error e => .error e
        | .ok u => skipFrom fuel (.after true) frames u
  | _ + 1, .after _, [], s => .ok s
  | fuel + 1, .after comma, f :: frames, s =>
    match skipBlanks s with
    | [] => failAt f.cutShort []
    | b :: t =>
      if b = f.closing then skipFrom fuel (.after true) frames t
      else if comma && b != 44 then failAfter f.expectedEnd (b :: t)
      else
        match f.enter (if comma then t else b :: t) with
        | .error e => .error e
        | .ok u => skipFrom fuel .before (f :: frames) u

def skipValue (fuel : Nat) (s : Bytes) : Except Failure Bytes :=
  skipFrom (2 * fuel + 2) .before [] s

end RecordSearch.Json
