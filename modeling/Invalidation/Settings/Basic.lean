import Invalidation.Fault
import Invalidation.Text.Upper

namespace Invalidation

-- How a registry is built.
structure RegistrySettings where
  traceLevel : Int := 0
  maxDepth : Option Int := some 256
  record : Bool := false
  journalSize : Int := 10000

def defaultLogFormat : Text := "%(asctime)s - %(name)s - %(levelname)s - %(message)s"

-- How logging is set up.
structure LoggingSettings where
  level : Text := "INFO"
  format : Text := defaultLogFormat
  logFile : Option Text := none

structure Settings where
  environment : Json := .str "development"
  registry : RegistrySettings := {}
  logging : LoggingSettings := {}

def levelNames : List Text :=
  ["CRITICAL", "FATAL", "ERROR", "WARN", "WARNING", "INFO", "DEBUG", "NOTSET"].map Text.ofString

def isLevelName (s : Text) : Bool := levelNames.contains (Text.upperAscii s)

namespace Settings

def validate (s : Settings) : Except Fault Unit := do
  let r := s.registry
  if r.traceLevel < 0 then throw (.configuration (.negativeTraceSetting r.traceLevel))
  if let some m := r.maxDepth then
    if m < 0 then throw (.configuration (.negativeMaxDepth (.int m)))
  if r.journalSize < 1 then throw (.configuration (.smallJournal r.journalSize))
  unless isLevelName s.logging.level do throw (.configuration (.unknownLevel s.logging.level))

def optionalInt : Option Int → Json
  | some n => .int n
  | none => .null

def toJson (s : Settings) : Json :=
  .obj [("environment", s.environment),
    ("registry", .obj [("trace_level", .int s.registry.traceLevel),
      ("max_depth", optionalInt s.registry.maxDepth),
      ("record_notifications", .bool s.registry.record),
      ("notification_log_size", .int s.registry.journalSize)]),
    ("logging", .obj [("level", .str s.logging.level), ("format", .str s.logging.format),
      ("log_file", Json.ofOption s.logging.logFile)])]

end Settings

end Invalidation
