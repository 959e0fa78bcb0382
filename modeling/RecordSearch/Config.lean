/-!
# Configuration of the service

Where the service listens, which files it serves, how large an upload may be,
which origins may read its answers, and whether it starts with sample records.
-/

namespace RecordSearch

structure Config where
  host : String
  port : UInt16
  staticDir : String
  maxUploadBytes : UInt64
  corsOrigins : List String
  noSeed : Bool
deriving DecidableEq, Repr

namespace Config

def standard : Config where
  host := "0.0.0.0"
  port := 3000
  staticDir := "dist"
  maxUploadBytes := 10485760
  corsOrigins := []
  noSeed := false

def socketAddr (c : Config) : String := s!"{c.host}:{c.port}"

end Config

end RecordSearch
