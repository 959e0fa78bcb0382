import RecordSearch.Upload.Csv
import RecordSearch.Upload.FileKind

/-!
# Extraction

The content of a file of a known kind, or why it cannot be had. The text of a PDF
file is had from a reader that is given from outside.
-/

namespace RecordSearch

/-! ## Readers of PDF files -/

/-- Why there is no text: the reader tells a fault of the file, or the task that
it runs in breaks down and is told of. -/
inductive PdfFault where
  | unreadable (told : String)
  | brokenDown (told : String)

abbrev PdfReader := Bytes → Except PdfFault String

/-- Stands in where no reader is at hand. -/
def PdfReader.absent : PdfReader := fun _ => .error (.unreadable "no reader of PDF files")

/-! ## Errors -/

inductive ExtractError where
  | unsupportedExtension (ext : String)
  | utf8 (e : Utf8.Fault)
  | csv (e : Csv.Fault)
  | pdf (told : String)
  /-- the task that read the file broke down -/
  | task (told : String)
deriving DecidableEq

namespace ExtractError

def message : ExtractError → String
  | .unsupportedExtension ext => s!"Unsupported file type: {ext}"
  | .utf8 e => s!"File is not valid UTF-8: {e.message}"
  | .csv e => s!"Malformed CSV: {e.message}"
  | .pdf told => s!"Unreadable PDF: {told}"
  | .task told => s!"Extraction task failed: {told}"

end ExtractError

/-! ## Extractors -/

def extractText (s : Bytes) : Except ExtractError String :=
  match Utf8.toString? s with
  | .ok t => .ok t
  | .error e => .error (.utf8 e)

def extractCsv (s : Bytes) : Except ExtractError (List Row) :=
  match Csv.rows s with
  | .ok rows => .ok rows
  | .error e => .error (.csv e)

def extractPdf (readPdf : PdfReader) (s : Bytes) : Except ExtractError String :=
  match readPdf s with
  | .ok t => .ok t
  | .error (.unreadable told) => .error (.pdf told)
  | .error (.brokenDown told) => .error (.task told)

def extract (readPdf : PdfReader) (kind : FileKind) (s : Bytes) : Except ExtractError ExtractedData :=
  match kind with
  | .text => (extractText s).map .text
  | .csv => (extractCsv s).map .rows
  | .pdf => (extractPdf readPdf s).map .text

def fileKind (name : String) : Except ExtractError FileKind :=
  match FileKind.ofName name with
  | .ok k => .ok k
  | .error ext => .error (.unsupportedExtension ext)

end RecordSearch
