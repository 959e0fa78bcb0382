import RecordSearch.Json.Writer
import RecordSearch.Text.Utf8

/-!
# Requests and responses

A request as it arrives and a response as it leaves, without the connection.
-/

namespace RecordSearch.Http

/-! ## Headers -/

/-- Names and values in order; names are compared without case. -/
abbrev Headers := List (String × String)

def sameName (a b : String) : Bool := a.toLower == b.toLower

def header? (h : Headers) (name : String) : Option String :=
  (h.find? fun p => sameName p.1 name).map Prod.snd

/-- The bytes that a header value may hold: no controls but the tab. -/
def isHeaderByte (b : UInt8) : Bool := (32 ≤ b && b != 127) || b == 9

def isHeaderValue (v : String) : Bool := (Utf8.ofString v).all isHeaderByte

def isPlainByte (b : UInt8) : Bool := (32 ≤ b && b < 127) || b == 9

def isPlainValue (v : String) : Bool := (Utf8.ofString v).all isPlainByte

def plainHeader? (h : Headers) (name : String) : Option String :=
  (header? h name).filter isPlainValue

/-! ## Targets -/

structure Target where
  origin : String
  path : String
  query : Option String
deriving DecidableEq, Repr

/-- The parts before and from the path on, of a target with scheme and host. -/
def splitOrigin (s : List Char) : List Char × List Char :=
  let scheme := s.takeWhile (· ≠ ':')
  match s.dropWhile (· ≠ ':') with
  | ':' :: '/' :: '/' :: t =>
    if !scheme.isEmpty && scheme.all Char.isAlphanum then
      let stops (c : Char) : Bool := c = '/' || c = '?' || c = '#'
      (scheme ++ [':', '/', '/'] ++ t.takeWhile (!stops ·), t.dropWhile (!stops ·))
    else ([], s)
  | _ => ([], s)

/-- A fragment is no part of a target; an empty path is the root. -/
def Target.ofString (s : String) : Target :=
  let (origin, rest) := splitOrigin s.toList
  let rest := rest.takeWhile (· ≠ '#')
  let path := rest.takeWhile (· ≠ '?')
  let query :=
    match rest.dropWhile (· ≠ '?') with
    | _ :: q => some (String.ofList q)
    | [] => none
  ⟨String.ofList origin, if path.isEmpty then "/" else String.ofList path, query⟩

/-! ## Messages -/

structure Request where
  method : String
  target : Target
  headers : Headers
  body : Bytes

structure Response where
  status : Nat
  headers : Headers
  body : Bytes

namespace Response

def empty (status : Nat) : Response := ⟨status, [], []⟩

def plain (status : Nat) (text : String) : Response :=
  ⟨status, [("content-type", "text/plain; charset=utf-8")], Utf8.ofString text⟩

def json (status : Nat) (v : Json) : Response :=
  ⟨status, [("content-type", "application/json")], Utf8.encode v.chars⟩

def notAllowed (methods : String) : Response := ⟨405, [("allow", methods)], []⟩

def withHeaders (r : Response) (h : Headers) : Response := { r with headers := r.headers ++ h }

def withoutBody (r : Response) : Response := { r with body := [] }

end Response

end RecordSearch.Http
