import RecordSearch.CommandLine
import RecordSearch.Server

/-!
# The program

Reads the configuration from the arguments and the environment, sets the service
up, and reports the records it holds and the address it is meant for.
-/

open RecordSearch

/-- The environment variables that stand in for options. -/
def settingVariables : List String :=
  ["HOST", "PORT", "STATIC_DIR", "MAX_UPLOAD_BYTES", "CORS_ORIGINS"]

def main (args : List String) : IO UInt32 := do
  let values ← settingVariables.mapM fun name => do return (name, ← IO.getEnv name)
  let env (name : String) : Option String := (values.find? fun v => v.1 == name).bind Prod.snd
  match CommandLine.parse env args with
  | .error (.fault f) =>
    IO.eprint f.message
    return 2
  | .error stop =>
    IO.print stop.message
    return 0
  | .ok config =>
    match Service.ofConfig? config ⟨[]⟩ PdfReader.absent with
    | none =>
      IO.eprintln "Wildcard origin cannot be part of a list"
      return 101
    | some _ =>
      let store := if config.noSeed then Store.empty else Store.withSamples
      IO.println s!"Record store ready with {store.size} records"
      IO.println s!"Service configured for {config.socketAddr}"
      return 0
