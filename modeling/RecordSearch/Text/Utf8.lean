/-!
# UTF-8

Reads bytes as characters. Where the bytes stop being UTF-8 the reader says
after how many good bytes that is, and whether the end of the input cut a
character short or some bytes can start no character at all.
-/

namespace RecordSearch

abbrev Bytes := List UInt8

namespace Utf8

/-! ## Writing -/

def encode (cs : List Char) : Bytes := cs.flatMap String.utf8EncodeChar

/-! ## The start of the input -/

/-- What the first bytes of a non-empty input are: a character and the bytes
after it, the beginning of a character that the input ends within, or a number
of bytes that no character starts with. -/
inductive Start where
  | char (c : Char) (rest : Bytes)
  | cut
  | bad (count : Nat) (rest : Bytes)

def isTail (b : UInt8) : Bool := b &&& 0xC0 == 0x80

/-- The second bytes that may follow a first byte: overlong forms, surrogates
and code points past the last one are ruled out here. -/
def secondRange (b : UInt8) : UInt8 × UInt8 :=
  if b == 0xE0 then (0xA0, 0xBF)
  else if b == 0xED then (0x80, 0x9F)
  else if b == 0xF0 then (0x90, 0xBF)
  else if b == 0xF4 then (0x80, 0x8F)
  else (0x80, 0xBF)

def width (b : UInt8) : Nat :=
  if b < 0x80 then 1
  else if b < 0xC2 then 0
  else if b < 0xE0 then 2
  else if b < 0xF0 then 3
  else if b < 0xF5 then 4
  else 0

def low (b : UInt8) : Nat := (b &&& 0x3F).toNat

def start (b : UInt8) (s : Bytes) : Start :=
  match width b with
  | 1 => .char (Char.ofNat b.toNat) s
  | 2 =>
    match s with
    | [] => .cut
    | b₁ :: s₁ =>
      if isTail b₁ then .char (Char.ofNat ((b &&& 0x1F).toNat * 64 + low b₁)) s₁ else .bad 1 s
  | 3 =>
    match s with
    | [] => .cut
    | b₁ :: s₁ =>
      if (secondRange b).1 ≤ b₁ && b₁ ≤ (secondRange b).2 then
        match s₁ with
        | [] => .cut
        | b₂ :: s₂ =>
          if isTail b₂ then
            .char (Char.ofNat (((b &&& 0x0F).toNat * 64 + low b₁) * 64 + low b₂)) s₂
          else .bad 2 s₁
      else .bad 1 s
  | 4 =>
    match s with
    | [] => .cut
    | b₁ :: s₁ =>
      if (secondRange b).1 ≤ b₁ && b₁ ≤ (secondRange b).2 then
        match s₁ with
        | [] => .cut
        | b₂ :: s₂ =>
          if isTail b₂ then
            match s₂ with
            | [] => .cut
            | b₃ :: s₃ =>
              if isTail b₃ then
                .char (Char.ofNat
                  ((((b &&& 0x07).toNat * 64 + low b₁) * 64 + low b₂) * 64 + low b₃)) s₃
              else .bad 3 s₂
          else .bad 2 s₁
      else .bad 1 s
  | _ => .bad 1 s

def Start.Shrinks (n : Nat) : Start → Prop
  | .char _ r => r.length ≤ n
  | .cut => True
  | .bad _ r => r.length ≤ n

theorem start_shrinks (b : UInt8) (s : Bytes) : (start b s).Shrinks s.length := by
  unfold start
  repeat' split
  all_goals simp [Start.Shrinks]
  all_goals omega

/-! ## The whole input -/

structure Fault where
  /-- the length of the longest valid beginning -/
  validUpTo : Nat
  /-- the number of bytes that can start no character; none if the input ends
  within a character -/
  badCount : Option Nat
deriving DecidableEq, Repr

def Fault.message (e : Fault) : String :=
  match e.badCount with
  | some n => s!"invalid utf-8 sequence of {n} bytes from index {e.validUpTo}"
  | none => s!"incomplete utf-8 byte sequence from index {e.validUpTo}"

theorem start_char_shorter {b : UInt8} {t rest : Bytes} {c : Char}
    (h : start b t = .char c rest) : rest.length < (b :: t).length := by
  have := start_shrinks b t
  rw [h] at this
  exact Nat.lt_succ_of_le this

theorem start_bad_shorter {b : UInt8} {t rest : Bytes} {n : Nat}
    (h : start b t = .bad n rest) : rest.length < (b :: t).length := by
  have := start_shrinks b t
  rw [h] at this
  exact Nat.lt_succ_of_le this

/-- Reads on after `done` bytes that gave the characters `acc`, last first. -/
def decodeFrom (done : Nat) (acc : List Char) (s : Bytes) : Except Fault (List Char) :=
  match s with
  | [] => .ok acc.reverse
  | b :: t =>
    match h : start b t with
    | .char c rest =>
      have := start_char_shorter h
      decodeFrom (done + width b) (c :: acc) rest
    | .cut => .error ⟨done, none⟩
    | .bad n _ => .error ⟨done, some n⟩
termination_by s.length
decreasing_by all_goals (simp only [List.length_cons] at *; omega)

def decode (s : Bytes) : Except Fault (List Char) := decodeFrom 0 [] s

/-- Reads on, and puts the replacement character for every stretch of bytes
that is no character. -/
def lossyFrom (acc : List Char) (s : Bytes) : List Char :=
  match s with
  | [] => acc.reverse
  | b :: t =>
    match h : start b t with
    | .char c rest =>
      have := start_char_shorter h
      lossyFrom (c :: acc) rest
    | .cut => ('\uFFFD' :: acc).reverse
    | .bad _ rest =>
      have := start_bad_shorter h
      lossyFrom ('\uFFFD' :: acc) rest
termination_by s.length
decreasing_by all_goals (simp only [List.length_cons] at *; omega)

def decodeLossy (s : Bytes) : List Char := lossyFrom [] s

def ofString (s : String) : Bytes := encode s.toList

def toString? (s : Bytes) : Except Fault String := (decode s).map String.ofList

end Utf8

end RecordSearch
