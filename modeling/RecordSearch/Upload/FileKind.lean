import RecordSearch.Text.Lowercase

/-!
# Kinds of files

The extension of a file name, in lower case, decides how the file is read. The
name may have directories before it, and slashes or single dots after it.
-/

namespace RecordSearch

inductive FileKind where
  | pdf
  | csv
  | text
deriving DecidableEq, Repr

namespace FileKind

/-! ## Paths -/

def lastComponent? (path : List Char) : Option (List Char) :=
  ((path.splitOn '/').filter fun p => !p.isEmpty && p ≠ ['.']).getLast?

/-- What follows the last dot of a component that has something before that dot. -/
def extensionOf (component : List Char) : List Char :=
  if component = ['.', '.'] then []
  else
    let tail := component.reverse.takeWhile (· ≠ '.')
    match component.reverse.dropWhile (· ≠ '.') with
    | _ :: _ :: _ => tail.reverse
    | _ => []

def fileExtension (name : String) : String :=
  match lastComponent? name.toList with
  | some c => String.ofList (extensionOf c)
  | none => ""

/-! ## The kind -/

def ofExtension? (ext : String) : Option FileKind :=
  if ext = "pdf" then some .pdf
  else if ext = "csv" then some .csv
  else if ext = "txt" then some .text
  else none

/-- The kind of a file, or the extension, with its dot, that has none. -/
def ofName (name : String) : Except String FileKind :=
  let ext := Text.lowercase (fileExtension name)
  match ofExtension? ext with
  | some k => .ok k
  | none => .error ("." ++ ext)

end FileKind

end RecordSearch
