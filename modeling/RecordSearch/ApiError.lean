import RecordSearch.Answers
import RecordSearch.Upload.Extract

/-!
# Errors of the service

The causes for which a request is refused or fails, each with its status and the
body that tells it.
-/

namespace RecordSearch

inductive ApiError where
  | missingParam (name : String)
  | noFile
  | invalidFileType (type : String)
  | invalidUpload (reason : String)
  | extraction (e : ExtractError)

namespace ApiError

def message : ApiError → String
  | .missingParam name => s!"Query parameter \"{name}\" is required"
  | .noFile => "No file uploaded"
  | .invalidFileType _ => "Invalid file type! Only PDF, CSV, and TXT are allowed."
  | .invalidUpload reason => s!"Invalid upload: {reason}"
  | .extraction _ => "Error processing file"

def status : ApiError → Nat
  | .extraction _ => 500
  | _ => 400

/-- Only a failed extraction has details. -/
def details : ApiError → Option String
  | .extraction e => some e.message
  | _ => none

def response (e : ApiError) : ErrorResponse := ⟨e.message, e.details⟩

end ApiError

end RecordSearch
