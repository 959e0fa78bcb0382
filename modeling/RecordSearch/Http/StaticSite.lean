import RecordSearch.Http.Message
import RecordSearch.Text.Percent

/-!
# Static files

The files of a directory, served by their paths. A path that leads nowhere is
answered with the index file, so that a front end may have paths of its own.
-/

namespace RecordSearch.Http

/-- The files of a directory by their paths, which are written with slashes. -/
structure StaticSite where
  files : List (String × Bytes)

namespace StaticSite

/-! ## Paths -/

/-- The components of the path of a target. None if the path is not UTF-8, if it
is absolute after decoding, or if it leads upwards. -/
def components? (path : String) : Option (List (List Char)) :=
  let trimmed := path.toList.dropWhile (· = '/')
  match Utf8.decode (Percent.decode (Utf8.encode trimmed)) with
  | .error _ => none
  | .ok cs =>
    let parts := cs.splitOn '/'
    if cs.head? = some '/' || parts.contains ['.', '.'] then none
    else some (parts.filter fun p => !p.isEmpty && p ≠ ['.'])

def joined (components : List (List Char)) : String :=
  String.ofList (List.intercalate ['/'] components)

def file? (s : StaticSite) (path : String) : Option Bytes :=
  (s.files.find? fun f => f.1 == path).map Prod.snd

/-- A path below which there are files; the root is one as long as there are any. -/
def isDirectory (s : StaticSite) (components : List (List Char)) : Bool :=
  s.files.any fun f =>
    components.isPrefixOf (f.1.toList.splitOn '/') && joined components != f.1

def maxName : Nat := 255

/-- A path that no file can have: it holds a NUL, or a component is too long in
a directory that is there. -/
def isImpossible (s : StaticSite) (components : List (List Char)) : Bool :=
  components.any (·.contains '\x00') ||
    (List.range components.length).any fun i =>
      s.isDirectory (components.take i) &&
        maxName < (Utf8.encode (components.getD i [])).length

/-! ## Types -/

def extensionTypes : List (String × String) := [
  ("html", "text/html"), ("htm", "text/html"), ("js", "text/javascript"),
  ("mjs", "text/javascript"), ("css", "text/css"), ("json", "application/json"),
  ("txt", "text/plain"), ("csv", "text/csv"), ("xml", "text/xml"), ("md", "text/markdown"),
  ("pdf", "application/pdf"), ("svg", "image/svg+xml"),
  ("png", "image/png"), ("jpg", "image/jpeg"), ("jpeg", "image/jpeg"), ("gif", "image/gif"),
  ("webp", "image/webp"), ("ico", "image/x-icon"), ("woff", "font/woff"), ("woff2", "font/woff2"),
  ("ttf", "font/ttf"), ("wasm", "application/wasm")]

def typeOf (path : String) : String :=
  let name := (path.toList.reverse.takeWhile (· ≠ '/')).reverse
  let ext := (name.reverse.takeWhile (· ≠ '.')).reverse
  let found :=
    if ext.length + 1 < name.length then
      extensionTypes.find? fun e => e.1.toList == ext.map Char.toLower
    else none
  match found with
  | some (_, t) => t
  | none => "application/octet-stream"

/-! ## Ranges -/

/-- A stretch of a file: from a place to a place or the end, or its last bytes. -/
inductive Range where
  | span (first : Nat) (last : Option Nat)
  | suffix (count : Nat)

/-- A number as ranges write it: no sign, no leading zero, below 2^64. -/
def rangeNumber? (s : List Char) : Option Nat :=
  if s.isEmpty || !s.all Char.isDigit || (s.head? = some '0' && 1 < s.length) then none
  else
    let n := s.foldl (fun n c => 10 * n + (c.toNat - 48)) 0
    if n < UInt64.size then some n else none

def range? (s : List Char) : Option Range :=
  match Text.splitFirst? '-' s with
  | none => none
  | some ([], last) =>
    (rangeNumber? last).bind fun n => if n = 0 then none else some (.suffix n)
  | some (first, []) => (rangeNumber? first).map fun n => .span n none
  | some (first, last) =>
    (rangeNumber? first).bind fun m => (rangeNumber? last).map fun n => .span m (some n)

/-- One range of a list may have a blank before it and none elsewhere. -/
def trimmedRange? (s : List Char) : Option (List Char) :=
  let blanks := (s.filter Char.isWhitespace).length
  if 1 < blanks || (s.getLast?.map Char.isWhitespace).getD false then none
  else some (Text.trim Char.isWhitespace s)

def ranges? (value : String) : Option (List Range) :=
  match value.toList with
  | 'b' :: 'y' :: 't' :: 'e' :: 's' :: '=' :: s =>
    (s.splitOn ',').mapM fun p => (trimmedRange? p).bind range?
  | _ => none

def bounds? (size : Nat) : Range → Option (Nat × Nat)
  | .span first last =>
    let last := min (last.getD (size - 1)) (size - 1)
    if first ≤ last && first < size then some (first, last) else none
  | .suffix count => if count ≤ size && 0 < size then some (size - count, size - 1) else none

def overlap : List (Nat × Nat) → Bool
  | [] => false
  | r :: rest => rest.any (fun t => r.1 ≤ t.2 && t.1 ≤ r.2) || overlap rest

/-! ## Answers -/

def fileHeaders (path : String) : Headers :=
  [("content-type", typeOf path), ("accept-ranges", "bytes")]

def unsatisfiable (path : String) (size : Nat) (body : String) : Response :=
  ⟨416, fileHeaders path ++ [("content-range", s!"bytes */{size}")], Utf8.ofString body⟩

def serve (path : String) (content : Bytes) (range : Option String) : Response :=
  let size := content.length
  match range with
  | none => ⟨200, fileHeaders path, content⟩
  | some value =>
    match (ranges? value).bind fun rs => rs.mapM (bounds? size) with
    | some [(first, last)] =>
      ⟨206, fileHeaders path ++ [("content-range", s!"bytes {first}-{last}/{size}")],
        (content.drop first).take (last + 1 - first)⟩
    | some rs =>
      unsatisfiable path size (if overlap rs then "" else "Cannot serve multipart range requests")
    | none => unsatisfiable path size ""

def fallback (s : StaticSite) (range : Option String) : Response :=
  match s.file? "index.html" with
  | some content => serve "index.html" content range
  | none => .empty 404

def withSlash (t : Target) : String :=
  t.origin ++ t.path ++ "/" ++
    match t.query with
    | some q => "?" ++ q
    | none => ""

def lookUp (s : StaticSite) (t : Target) (range : Option String) : Response :=
  match components? t.path with
  | none => s.fallback range
  | some components =>
    let slash := t.path.toList.getLast? = some '/'
    if s.isDirectory components then
      if slash then
        match s.file? (joined (components ++ ["index.html".toList])) with
        | some content => serve "index.html" content range
        | none => s.fallback range
      else ⟨307, [("location", withSlash t)], []⟩
    else if s.isImpossible components then .empty 500
    else
      match s.file? (joined components) with
      | some content => serve (joined components) content range
      | none => s.fallback range

/-- Answers a request for a file. Content is left out for HEAD; the text of a
refused range is no content. -/
def answer (s : StaticSite) (r : Request) : Response :=
  if r.method = "GET" || r.method = "HEAD" then
    let found := s.lookUp r.target (plainHeader? r.headers "range")
    if r.method = "HEAD" && found.status ≠ 416 then found.withoutBody else found
  else .notAllowed "GET,HEAD"

end StaticSite

end RecordSearch.Http
