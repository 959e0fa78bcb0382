import RecordSearch.ApiError
import RecordSearch.Config
import RecordSearch.Http.Cors
import RecordSearch.Http.Multipart
import RecordSearch.Http.StaticSite
import RecordSearch.Store

/-!
# The service

Answers requests: searches, submissions, listings, uploads and the state of the
store, and static files for every other path. Only a submission that is accepted
changes the store.
-/

namespace RecordSearch

open Http (Request Response Headers)

/-! ## Routes -/

inductive Route where
  | health
  | search
  | submit
  | submissions
  | upload
deriving DecidableEq, Repr

namespace Route

def path : Route → String
  | .health => "/health"
  | .search => "/api/search"
  | .submit => "/api/submit"
  | .submissions => "/api/submissions"
  | .upload => "/api/upload"

def all : List Route := [.health, .search, .submit, .submissions, .upload]

/-- Paths are compared as they stand, without decoding. -/
def ofPath? (path : String) : Option Route := all.find? fun r => r.path == path

def isWrite : Route → Bool
  | .submit | .upload => true
  | _ => false

def methods (r : Route) : String := if r.isWrite then "POST" else "GET,HEAD"

end Route

/-! ## The service -/

structure Service where
  cors : Http.Cors.Policy
  site : Http.StaticSite
  readPdf : PdfReader
  maxUploadBytes : Nat

/-- Sets up the service. None if the list of origins holds a star. -/
def Service.ofConfig? (c : Config) (site : Http.StaticSite) (readPdf : PdfReader) : Option Service :=
  (Http.Cors.Policy.ofOrigins? c.corsOrigins).map fun cors =>
    ⟨cors, site, readPdf, c.maxUploadBytes.toNat⟩

def ApiError.toResponse (e : ApiError) : Response := .json e.status e.response.toJson

/-! ## Reading -/

def answerHealth (store : Store) : Response :=
  .json 200 (HealthResponse.toJson ⟨"ok", store.size.toUInt64⟩)

def answerListing (store : Store) : Response :=
  .json 200 (.array (store.snapshot.map Record.toJson))

def searchResponse (store : Store) (query : String) : SearchResponse :=
  let filters := Query.parse query
  let results := filters.evaluate store.snapshot
  ⟨results, results.length.toUInt64, filters⟩

/-- The query that a query string asks for: none if it asks for none, and a fault
if it asks twice. -/
def searchParam (query : Option String) : Except Unit (Option String) :=
  let fields := Percent.formFields (Utf8.ofString (query.getD ""))
  match fields.filter fun f => f.1 == "search" with
  | [] => .ok none
  | [(_, value)] => .ok (some value)
  | _ => .error ()

def answerSearch (store : Store) (r : Request) : Response :=
  match searchParam r.target.query with
  | .error () =>
    .plain 400 "Failed to deserialize query string: duplicate field `search`"
  | .ok param =>
    match param with
    | some query =>
      if query.isEmpty then (ApiError.missingParam "search").toResponse
      else .json 200 (searchResponse store query).toJson
    | none => (ApiError.missingParam "search").toResponse

/-! ## Submitting -/

def maxSubmitBytes : Nat := 2097152

def hasJsonType (h : Headers) : Bool :=
  match (Http.plainHeader? h "content-type").bind fun v => Http.MediaType.parse? v.toList with
  | some m => m.isJson
  | none => false

def unreadable (body : Bytes) (e : Json.Failure) : Response :=
  let told := e.located body
  match e.fault.kind with
  | .shape => .plain 422 s!"Failed to deserialize the JSON body into the target type: {told}"
  | _ => .plain 400 s!"Failed to parse the request body as JSON: {told}"

/-- The record that a submission holds, or the answer that refuses it. -/
def submitted (r : Request) : Except Response Record :=
  if !hasJsonType r.headers then
    .error (.plain 415 "Expected request with `Content-Type: application/json`")
  else if maxSubmitBytes < r.body.length then
    .error (.plain 413 "Failed to buffer the request body: length limit exceeded")
  else
    match Record.readFirst r.body with
    | .error e => .error (unreadable r.body e)
    | .ok (fields, _) => .ok fields

def answerSubmit (freshId : String) (store : Store) (r : Request) : Response × Store :=
  match submitted r with
  | .error response => (response, store)
  | .ok fields =>
    let record := newSubmission freshId fields.entries
    (.json 200 (SubmitResponse.toJson ⟨record⟩), store.append record)

/-! ## Uploading -/

def allowedTypes : List String := ["application/pdf", "text/csv", "text/plain"]

def uploadField : String := "file"

/-- What a file part gives. Its type is looked at first, then its bytes, then
its name. -/
def uploadPart (readPdf : PdfReader) (p : Http.Multipart.Part) : Except ApiError UploadResponse :=
  if !allowedTypes.contains p.contentType then .error (.invalidFileType p.contentType)
  else
    match p.content with
    | .error fault => .error (.invalidUpload fault.message)
    | .ok bytes =>
      match fileKind (p.fileName.getD "") with
      | .error e => .error (.extraction e)
      | .ok kind =>
        match extract readPdf kind bytes with
        | .error e => .error (.extraction e)
        | .ok data => .ok ⟨"File processed successfully", data⟩

/-- The first file part of a form decides. -/
def uploadForm (readPdf : PdfReader) (form : Http.Multipart.Form) :
    Except ApiError UploadResponse :=
  match form.parts.find? fun p => p.name == some uploadField with
  | some p => uploadPart readPdf p
  | none =>
    match form.fault with
    | some fault => .error (.invalidUpload fault.message)
    | none => .error .noFile

def formBoundary? (h : Headers) : Option Bytes :=
  ((Http.plainHeader? h "content-type").bind fun v =>
    (Http.MediaType.parse? v.toList).bind Http.MediaType.boundary?).map Utf8.encode

/-- The form of a body; one over the limit cannot be read at all. -/
def uploadedForm (limit : Nat) (boundary body : Bytes) : Http.Multipart.Form :=
  if limit < body.length then ⟨[], some .tooLarge⟩ else Http.Multipart.parse boundary body

def answerUpload (s : Service) (r : Request) : Response :=
  match formBoundary? r.headers with
  | none => .plain 400 "Invalid `boundary` for `multipart/form-data` request"
  | some boundary =>
    match uploadForm s.readPdf (uploadedForm s.maxUploadBytes boundary r.body) with
    | .ok answer => .json 200 answer.toJson
    | .error e => e.toResponse

/-! ## Requests -/

def Route.run (route : Route) (s : Service) (freshId : String) (store : Store) (r : Request) :
    Response × Store :=
  match route with
  | .health => (answerHealth store, store)
  | .search => (answerSearch store r, store)
  | .submissions => (answerListing store, store)
  | .submit => answerSubmit freshId store r
  | .upload => (answerUpload s r, store)

/-- Answers a request to a route: one of its methods, or a refusal. -/
def Route.answer (route : Route) (s : Service) (freshId : String) (store : Store) (r : Request) :
    Response × Store :=
  if route.isWrite then
    if r.method = "POST" then route.run s freshId store r
    else (.notAllowed route.methods, store)
  else if r.method = "GET" then route.run s freshId store r
  else if r.method = "HEAD" then
    let (response, store) := route.run s freshId store r
    (response.withoutBody, store)
  else (.notAllowed route.methods, store)

def preflight (route : Option Route) : Response :=
  ⟨200,
    (match route with
      | some r => [("allow", r.methods)]
      | none => []) ++ Http.Cors.preflightHeaders, []⟩

/-- Answers one request. `freshId` is the identifier of the record that the
request may add to the store. -/
def Service.answer (s : Service) (freshId : String) (store : Store) (r : Request) :
    Response × Store :=
  let route := Route.ofPath? r.target.path
  let (response, store) :=
    if r.method = "OPTIONS" then (preflight route, store)
    else
      match route with
      | some route => route.answer s freshId store r
      | none => (s.site.answer r, store)
  (response.withHeaders (s.cors.headers r.headers), store)

def Service.run (s : Service) (store : Store) :
    List (String × Request) → List Response × Store
  | [] => ([], store)
  | (freshId, r) :: rest =>
    let (response, store) := s.answer freshId store r
    let (responses, store) := s.run store rest
    (response :: responses, store)

end RecordSearch
