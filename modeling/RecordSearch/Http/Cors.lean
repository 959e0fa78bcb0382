import RecordSearch.Http.Message

/-!
# Requests from other origins

Either any origin may read the answers, or those of a list. A listed origin is
told by its name, and one that is not listed is told nothing.
-/

namespace RecordSearch.Http.Cors

inductive Policy where
  | anyOrigin
  | listed (origins : List String)
deriving DecidableEq, Repr

/-- The policy of a list of configured origins. No origin at all means any;
entries that no header can hold are dropped. A star is no origin of a list. -/
def Policy.ofOrigins? (origins : List String) : Option Policy :=
  if origins.isEmpty then some .anyOrigin
  else
    let usable := origins.filter isHeaderValue
    if usable.contains "*" then none else some (.listed usable)

def Policy.allowed? (p : Policy) (origin : Option String) : Option String :=
  match p with
  | .anyOrigin => some "*"
  | .listed origins => origin.filter origins.contains

def Policy.headers (p : Policy) (request : Headers) : Headers :=
  ("vary", "origin, access-control-request-method, access-control-request-headers") ::
    match p.allowed? (header? request "origin") with
    | some o => [("access-control-allow-origin", o)]
    | none => []

def preflightHeaders : Headers :=
  [("access-control-allow-methods", "*"), ("access-control-allow-headers", "*")]

end RecordSearch.Http.Cors
