import RecordSearch.Http.MediaType
import RecordSearch.Http.Message
import RecordSearch.Text.Quoted

/-!
# Forms in parts

A form is cut into parts by its boundary. Each part has headers, which give its
name, its file name and its content type, and its content. Reading goes on until
the closing boundary or the first fault.
-/

namespace RecordSearch.Http.Multipart

/-! ## Parts -/

inductive Fault where
  /-- the form ends before its closing boundary -/
  | incompleteStream
  /-- the form ends within the content of a part -/
  | incompleteContent (name : Option String)
  | badHeaders
  /-- the form is larger than it may be -/
  | tooLarge
deriving DecidableEq, Repr

def Fault.message : Fault → String
  | .incompleteStream => "incomplete multipart stream"
  | .incompleteContent name =>
    s!"field {Text.quoted (name.getD unknown)} received with incomplete data"
  | .badHeaders => "failed to read headers"
  | .tooLarge => "failed to read stream"
where
  unknown : String := "<unknown>"

instance : DecidableEq (Except Fault Bytes)
  | .ok s, .ok t => decidable_of_iff (s = t) ⟨congrArg Except.ok, Except.ok.inj⟩
  | .error e, .error f => decidable_of_iff (e = f) ⟨congrArg Except.error, Except.error.inj⟩
  | .ok _, .error _ => .isFalse nofun
  | .error _, .ok _ => .isFalse nofun

structure Part where
  name : Option String
  fileName : Option String
  /-- empty if the part has none that can be read -/
  contentType : String
  content : Except Fault Bytes
deriving DecidableEq

structure Form where
  parts : List Part
  fault : Option Fault
deriving DecidableEq

/-! ## Searching -/

/-- The bytes before and after the first occurrence of a word; `acc` holds bytes
passed, last first. -/
def breakAt? (word acc : Bytes) : Bytes → Option (Bytes × Bytes)
  | [] => if word.isEmpty then some (acc.reverse, []) else none
  | b :: s =>
    if word.isPrefixOf (b :: s) then some (acc.reverse, (b :: s).drop word.length)
    else breakAt? word (b :: acc) s

def crlf : Bytes := [13, 10]

def dashes : Bytes := [45, 45]

/-! ## Headers -/

def isTokenByte (b : UInt8) : Bool := b < 128 && MediaType.isTokenChar (Char.ofNat b.toNat)

def isBlank (b : UInt8) : Bool := b == 32 || b == 9

def lowerByte (b : UInt8) : UInt8 := if 65 ≤ b && b ≤ 90 then b + 32 else b

def maxHeaders : Nat := 32

def lineEnd? : Bytes → Option Bytes
  | 13 :: 10 :: s => some s
  | 10 :: s => some s
  | _ => none

/-- Reads headers up to an empty line, at most as many as the fuel says. -/
def headers? (acc : List (Bytes × Bytes)) : Nat → Bytes → Option (List (Bytes × Bytes))
  | fuel, s =>
    match lineEnd? s with
    | some _ => some acc.reverse
    | none =>
      match fuel with
      | 0 => none
      | fuel + 1 =>
        let name := s.takeWhile isTokenByte
        match s.dropWhile isTokenByte with
        | 58 :: t =>
          if name.isEmpty then none
          else
            let value := t.takeWhile isHeaderByte
            match lineEnd? (t.dropWhile isHeaderByte) with
            | some rest =>
              headers? ((name.map lowerByte, Text.trim isBlank value) :: acc) fuel rest
            | none => none
        | _ => none

/-- The value of a header, of one that is repeated the last. -/
def header? (h : List (Bytes × Bytes)) (name : List Char) : Option Bytes :=
  (h.findRev? fun p => p.1 == Utf8.encode name).map Prod.snd

/-! ## Attributes of the disposition -/

def isSpace (b : UInt8) : Bool := b == 32 || b == 9 || b == 10 || b == 12 || b == 13

/-- Reads on to the closing quote; a quote after a backslash does not close. The
answer tells whether there was such a quote. -/
def quotedFrom (escaped : Bool) (acc : Bytes) : Bytes → Option (Bytes × Bool)
  | [] => none
  | b :: s =>
    if b == 34 then
      match acc with
      | 92 :: _ => quotedFrom true (b :: acc) s
      | _ => some (acc.reverse, escaped)
    else quotedFrom escaped (b :: acc) s

def unescape : Bytes → Bytes
  | 92 :: 34 :: s => 34 :: unescape s
  | b :: s => b :: unescape s
  | [] => []

def attributeValue? (s : Bytes) : Option String :=
  match s.dropWhile isSpace with
  | 61 :: t =>
    match t.dropWhile isSpace with
    | 34 :: u =>
      match quotedFrom false [] u with
      | none => none
      | some (v, escaped) => (Utf8.toString? (if escaped then unescape v else v)).toOption
    | u => (Utf8.toString? (u.takeWhile fun b => b != 59 && b != 32)).toOption
  | _ => none

/-- Looks for an attribute. A longer word that holds its name is passed over as
far as the name goes, and the rest stands as if nothing were before it. `before`
is the byte before the input, and `skip` bytes are still to be passed over. -/
def attributeFrom (name : Bytes) : UInt8 → Nat → Bytes → Option String
  | _, _, [] => none
  | before, 0, b :: s =>
    if name.isPrefixOf (b :: s) then
      if isSpace before || before == 59 then attributeValue? ((b :: s).drop name.length)
      else attributeFrom name 59 (name.length - 1) s
    else attributeFrom name b 0 s
  | _, skip + 1, _ :: s => attributeFrom name 59 skip s

def attribute? (name : List Char) (s : Bytes) : Option String :=
  attributeFrom (Utf8.encode name) 59 0 s

/-! ## Reading -/

def plainText? (s : Bytes) : Option (List Char) :=
  if s.all isPlainByte then some (s.map fun b => Char.ofNat b.toNat) else none

def contentTypeOf (h : List (Bytes × Bytes)) : String :=
  match ((header? h "content-type".toList).bind plainText?).bind MediaType.parse? with
  | some m => String.ofList m.text
  | none => ""

def partOf (h : List (Bytes × Bytes)) (content : Option String → Except Fault Bytes) : Part :=
  let disposition := header? h "content-disposition".toList
  let name := disposition.bind (attribute? "name".toList)
  ⟨name, disposition.bind (attribute? "filename".toList), contentTypeOf h, content name⟩

def partsFrom (delimiter : Bytes) (acc : List Part) : Nat → Bytes → Form
  | 0, _ => ⟨acc.reverse, some .incompleteStream⟩
  | fuel + 1, s =>
    if dashes.isPrefixOf s then ⟨acc.reverse, none⟩
    else
      match s.dropWhile isBlank with
      | 13 :: 10 :: t =>
        match breakAt? (crlf ++ crlf) [] t with
        | none => ⟨acc.reverse, some .incompleteStream⟩
        | some (head, u) =>
          match headers? [] maxHeaders (head ++ crlf ++ crlf) with
          | none => ⟨acc.reverse, some .badHeaders⟩
          | some h =>
            match breakAt? (crlf ++ delimiter) [] u with
            | some (content, v) =>
              partsFrom delimiter (partOf h (fun _ => .ok content) :: acc) fuel v
            | none =>
              let part := partOf h fun name => .error (.incompleteContent name)
              ⟨(part :: acc).reverse, some (.incompleteContent part.name)⟩
      | _ => ⟨acc.reverse, some .incompleteStream⟩

/-- Reads a form. What stands before the first boundary is no part of it. -/
def parse (boundary : Bytes) (s : Bytes) : Form :=
  let delimiter := dashes ++ boundary
  match breakAt? delimiter [] s with
  | none => ⟨[], some .incompleteStream⟩
  | some (_, t) => partsFrom delimiter [] (s.length + 1) t

end RecordSearch.Http.Multipart
