import RecordSearch.Text.Split

/-!
# Media types

The value of a content type: a type and a subtype, and parameters. Type,
subtype and parameter names have no case and are kept in lower case.
-/

namespace RecordSearch.Http

structure MediaType where
  type : List Char
  subtype : List Char
  params : List (List Char × List Char)
  /-- the whole text, which ends before an empty list of parameters -/
  text : List Char

namespace MediaType

/-! ## Characters -/

def isTokenChar (c : Char) : Bool :=
  c.isAlphanum || ['!', '#', '$', '%', '&', '\'', '*', '+', '-', '.', '^', '_', '\x60', '|',
    '~'].contains c

def isQuotedChar (c : Char) : Bool := 31 < c.toNat && c.toNat ≠ 127

def lower (s : List Char) : List Char := s.map Char.toLower

/-! ## Parameters -/

/-- Reads a value between quotes, its first character being any. The answer is
the value and what follows the closing quote. -/
def quotedValue? (s : List Char) : Option (List Char × List Char) :=
  match s with
  | [] => none
  | c :: t =>
    if isQuotedChar c then
      let rest := t.takeWhile (· ≠ '"')
      match t.dropWhile (· ≠ '"') with
      | _ :: after => if rest.all isQuotedChar then some (c :: rest, after) else none
      | [] => none
    else none

def afterQuoted? (s : List Char) : Option (List Char) :=
  match s.dropWhile (· = ' ') with
  | [] => some []
  | ';' :: t => some t
  | _ => none

/-- Reads a value: what was read, what follows it, and the text it had, up to
and including the semicolon. -/
def value? (s : List Char) : Option (List Char × List Char) :=
  match s with
  | '"' :: t =>
    match quotedValue? t with
    | some (v, u) => (afterQuoted? u).map fun w => (v, w)
    | none => none
  | _ =>
    let v := s.takeWhile isTokenChar
    match s.dropWhile isTokenChar with
    | [] => some (v, [])
    | ';' :: t => if v.isEmpty then none else some (v, t)
    | _ => none

/-- Reads parameters to the end of the text. Each is added to `acc`, and the
text it had, its name in lower case, to `written`. -/
def params? (acc : List (List Char × List Char)) (written : List Char) :
    Nat → List Char → Option (List (List Char × List Char) × List Char)
  | 0, _ => none
  | fuel + 1, s =>
    let spaces := s.takeWhile (· = ' ')
    match s.dropWhile (· = ' ') with
    | [] => some (acc.reverse, written)
    | t =>
      let name := t.takeWhile isTokenChar
      match t.dropWhile isTokenChar with
      | '=' :: u =>
        if name.isEmpty then none
        else
          match value? u with
          | none => none
          | some (v, rest) =>
            let text := u.take (u.length - rest.length)
            params? ((lower name, v) :: acc)
              (written ++ spaces ++ lower name ++ '=' :: text) fuel rest
      | _ => none

/-! ## The whole -/

def parse? (s : List Char) : Option MediaType :=
  let type := s.takeWhile isTokenChar
  match s.dropWhile isTokenChar with
  | '/' :: t =>
    if type.isEmpty then none
    else
      let subtype := t.takeWhile isTokenChar
      let essence := lower type ++ '/' :: lower subtype
      match t.dropWhile isTokenChar with
      | [] => some ⟨lower type, lower subtype, [], essence⟩
      | ';' :: u =>
        if subtype.isEmpty then none
        else
          match params? [] [] (u.length + 1) u with
          | none => none
          | some (params, written) =>
            some ⟨lower type, lower subtype, params,
              if params.isEmpty then essence else essence ++ ';' :: written⟩
      | _ => none
  | _ => none

def param? (m : MediaType) (name : List Char) : Option (List Char) :=
  (m.params.find? fun p => p.1 == name).map Prod.snd

/-- JSON itself, or a format that is written in it. -/
def isJson (m : MediaType) : Bool :=
  m.type == "application".toList &&
    (m.subtype == "json".toList ||
      match Text.splitFirst? '+' m.subtype.reverse with
      | some (suffix, base) =>
        !base.isEmpty &&
          (suffix.reverse == "json".toList || base.reverse == "json".toList)
      | none => false)

def boundary? (m : MediaType) : Option (List Char) :=
  if m.type == "multipart".toList && m.subtype == "form-data".toList then
    m.param? "boundary".toList
  else none

end MediaType

end RecordSearch.Http
