import RecordSearch.Config
import RecordSearch.Text.Numeral
import RecordSearch.Text.Plain
import RecordSearch.Text.Similarity
import RecordSearch.Text.Split

/-!
# The command line

Settings are given by long options, or by environment variables where the option
is absent, and have defaults. The arguments are read from left to right, and an
option whose value is the next argument counts as given when that argument has
been followed by another one or by the end.
-/

namespace RecordSearch.CommandLine

open Text (digitsBelow tooLarge natural64)

/-! ## Settings -/

inductive Setting where
  | host
  | port
  | staticDir
  | maxUploadBytes
  | corsOrigin
  | noSeed
  | help
  | version
deriving DecidableEq, Repr

namespace Setting

def all : List Setting :=
  [.host, .port, .staticDir, .maxUploadBytes, .corsOrigin, .noSeed, .help, .version]

def long : Setting → String
  | .host => "host"
  | .port => "port"
  | .staticDir => "static-dir"
  | .maxUploadBytes => "max-upload-bytes"
  | .corsOrigin => "cors-origin"
  | .noSeed => "no-seed"
  | .help => "help"
  | .version => "version"

/-- The name of the value, for options that take one; it also names the
environment variable. -/
def valueName? : Setting → Option String
  | .host => some "HOST"
  | .port => some "PORT"
  | .staticDir => some "STATIC_DIR"
  | .maxUploadBytes => some "MAX_UPLOAD_BYTES"
  | .corsOrigin => some "CORS_ORIGINS"
  | _ => none

def takesValue (s : Setting) : Bool := s.valueName?.isSome

/-- Settings that make up the configuration; the others end the reading. -/
def configures (s : Setting) : Bool := s ≠ .help && s ≠ .version

def display (s : Setting) : String :=
  match s.valueName? with
  | some v => s!"--{s.long} <{v}>"
  | none => s!"--{s.long}"

def ofLong? (name : String) : Option Setting := all.find? fun s => s.long == name

def ofShort? (c : Char) : Option Setting :=
  if c = 'h' then some .help else if c = 'V' then some .version else none

end Setting

/-! ## Faults -/

inductive Fault where
  | invalidValue (s : Setting) (value reason : String)
  | missingValue (s : Setting)
  | repeated (s : Setting)
  /-- an argument that is no option, what it may have been meant to be, and the
  options given so far -/
  | unknown (arg : String) (similar : Option Setting) (used : List Setting)
  /-- a value for an option that takes none, and whether options were given before -/
  | unneededValue (s : Setting) (value : String) (others : Bool)
deriving DecidableEq, Repr

def program : String := "submission-search"

def versionText : String := s!"{program} 0.1.0\n"

def helpLines : List String := [
  "In-memory submission store with a field:value query language over HTTP",
  "",
  "Usage: submission-search [OPTIONS]",
  "",
  "Options:",
  "      --host <HOST>",
  "          Interface to bind the HTTP server to [env: HOST=] [default: 0.0.0.0]",
  "      --port <PORT>",
  "          Port to bind the HTTP server to [env: PORT=] [default: 3000]",
  "      --static-dir <STATIC_DIR>",
  "          Directory of the bundled front end, served for every unmatched path " ++
    "[env: STATIC_DIR=] [default: dist]",
  "      --max-upload-bytes <MAX_UPLOAD_BYTES>",
  "          Largest accepted request body for uploads, in bytes " ++
    "[env: MAX_UPLOAD_BYTES=] [default: 10485760]",
  "      --cors-origin <CORS_ORIGINS>",
  "          Allowed CORS origins; none means any origin [env: CORS_ORIGINS=]",
  "      --no-seed",
  "          Start with an empty store instead of the two sample records",
  "  -h, --help",
  "          Print help",
  "  -V, --version",
  "          Print version"]

def helpText : String := "\n".intercalate helpLines ++ "\n"

/-- The usage line: the options named, or a word for all of them. -/
def usage (used : List Setting) : String :=
  let shown := used.eraseDups.map Setting.display
  s!"Usage: {program} " ++ if shown.isEmpty then "[OPTIONS]" else " ".intercalate shown

def choice : String :=
  "<" ++ "|".intercalate ((Setting.all.filter Setting.configures).map Setting.display) ++ ">"

/-- The usage line of an option that was given a value it does not take. Once
settings have been given it names the choice among all of them, which an option
of the choice is not named beside. -/
def usageOf (s : Setting) (others : Bool) : String :=
  let own := if others && s.configures then [] else [s.display]
  let all := if others then [choice] else []
  s!"Usage: {program} " ++ " ".intercalate (own ++ all)

def Fault.body : Fault → String
  | .invalidValue s value reason => s!"invalid value '{value}' for '{s.display}': {reason}"
  | .missingValue s => s!"a value is required for '{s.display}' but none was supplied"
  | .repeated s =>
    s!"the argument '{s.display}' cannot be used multiple times\n\n{usage []}"
  | .unknown arg none used => s!"unexpected argument '{arg}' found\n\n{usage used}"
  | .unknown arg (some s) used =>
    s!"unexpected argument '{arg}' found\n\n  tip: a similar argument exists: '--{s.long}'\n\n" ++
      usage (used ++ [s])
  | .unneededValue s value others =>
    s!"unexpected value '{value}' for '{s.display}' found; no more were expected\n\n" ++
      usageOf s others

def Fault.message (f : Fault) : String :=
  Text.plain s!"error: {f.body}\n\nFor more information, try '--help'.\n"

inductive Stop where
  | help
  | version
  | fault (f : Fault)
deriving DecidableEq, Repr

def Stop.message : Stop → String
  | .help => helpText
  | .version => versionText
  | .fault f => f.message

/-! ## Values -/

def tooSmall : String := "number too small to fit in target type"

/-- The least whole number too large for 64 bits with sign. -/
def signed64 : Nat := 0x8000000000000000

def integer64 (value : String) : Except String Int :=
  match value.toList with
  | [] => .error "cannot parse integer from empty string"
  | ['+'] | ['-'] => .error "invalid digit found in string"
  | '-' :: ds => (digitsBelow (signed64 + 1) tooSmall 0 ds).map fun n => -(n : Int)
  | '+' :: ds => (digitsBelow signed64 tooLarge 0 ds).map Int.ofNat
  | ds => (digitsBelow signed64 tooLarge 0 ds).map Int.ofNat

def portNumber (value : String) : Except String UInt16 :=
  match integer64 value with
  | .error e => .error e
  | .ok n =>
    if 0 ≤ n ∧ n ≤ 65535 then .ok n.toNat.toUInt16 else .error s!"{n} is not in 0..=65535"

def assign (c : Config) (s : Setting) (value : String) : Except Fault Config :=
  match s with
  | .host => .ok { c with host := value }
  | .port =>
    match portNumber value with
    | .ok p => .ok { c with port := p }
    | .error e => .error (.invalidValue s value e)
  | .staticDir =>
    if value.isEmpty then .error (.missingValue s) else .ok { c with staticDir := value }
  | .maxUploadBytes =>
    match natural64 value with
    | .ok n => .ok { c with maxUploadBytes := n.toUInt64 }
    | .error e => .error (.invalidValue s value e)
  | .corsOrigin =>
    let pieces := (value.toList.splitOn ',').map String.ofList
    .ok { c with corsOrigins := c.corsOrigins ++ pieces }
  | .noSeed => .ok { c with noSeed := true }
  | .help | .version => .ok c

/-! ## Arguments -/

/-- What the arguments so far amount to: the configuration, the options given, in
order, and an option that waits for its value or for what follows it. -/
structure State where
  config : Config
  used : List Setting
  pending : Option (Setting × Option String)

def State.initial : State := ⟨Config.standard, [], none⟩

/-- Takes an option with its value as given. Only origins may be given again. -/
def State.give (st : State) (s : Setting) (value : Option String) : Except Stop State :=
  if s.takesValue && value.isNone then .error (.fault (.missingValue s))
  else if s = .help then .error .help
  else if s = .version then .error .version
  else if st.used.contains s && s ≠ .corsOrigin then .error (.fault (.repeated s))
  else
    match assign st.config s (value.getD "") with
    | .ok c => .ok ⟨c, if st.used.contains s then st.used else st.used ++ [s], none⟩
    | .error f => .error (.fault f)

def State.settle (st : State) : Except Stop State :=
  match st.pending with
  | none => .ok st
  | some (s, value) => State.give { st with pending := none } s value

/-- The options that count as given when the one that waits is taken as it is,
whatever its value. An option that may not be given again no longer counts when
it is. -/
def State.named (st : State) : List Setting :=
  match st.pending with
  | some (s, some _) =>
    if !st.used.contains s then st.used ++ [s]
    else if s = .corsOrigin then st.used
    else st.used.erase s
  | _ => st.used

def State.takeLong (st : State) (name : String) (value : Option String) : Except Stop State :=
  match Setting.ofLong? name with
  | none =>
    let similar := (Text.mostSimilar? name (Setting.all.map Setting.long)).bind Setting.ofLong?
    .error (.fault (.unknown ("--" ++ name) similar st.named))
  | some s =>
    match s.takesValue, value with
    | false, some v => .error (.fault (.unneededValue s v !st.used.isEmpty))
    | true, none => st.settle.map fun st => { st with pending := some (s, none) }
    | _, _ => st.settle.bind fun st => st.give s value

def State.take (st : State) (arg : String) : Except Stop State :=
  match arg.toList with
  | '-' :: '-' :: rest =>
    match Text.splitFirst? '=' rest with
    | some (name, value) => st.takeLong (String.ofList name) (some (String.ofList value))
    | none => st.takeLong (String.ofList rest) none
  | '-' :: c :: _ =>
    match Setting.ofShort? c with
    | some s => st.settle.bind fun st => st.give s none
    | none => .error (.fault (.unknown (String.ofList ['-', c]) none []))
  | _ =>
    match st.pending with
    | some (s, none) => .ok { st with pending := some (s, some arg) }
    | _ => .error (.fault (.unknown arg none []))

def State.takeAll (st : State) : List String → Except Stop State
  | [] => st.settle
  | arg :: rest =>
    if arg = "--" then
      match rest with
      | [] => st.settle
      | next :: _ => .error (.fault (.unknown next none []))
    else (st.take arg).bind fun st => st.takeAll rest

/-! ## The environment -/

/-- Takes a setting from its variable unless its option was given. -/
def fromVariable (env : String → Option String) (st : State) (s : Setting) :
    Except Stop State :=
  if st.used.contains s then .ok st
  else
    match s.valueName?.bind env with
    | none => .ok st
    | some value =>
      match assign st.config s value with
      | .ok c => .ok { st with config := c }
      | .error f => .error (.fault f)

def parse (env : String → Option String) (args : List String) : Except Stop Config := do
  let st ← State.initial.takeAll args
  let st ← Setting.all.foldlM (fromVariable env) st
  return st.config

end RecordSearch.CommandLine
