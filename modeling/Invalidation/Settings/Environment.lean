import Invalidation.Settings.Basic
import Invalidation.Text.Digits
import Invalidation.Text.Encoding

namespace Invalidation

abbrev Environment := List (Text × Text)

def systemEncodable (t : Text) : Except Fault Unit :=
  match Text.unencodable? true t with
  | some (a, b) => .error (.host (.cannotEncode t a b))
  | none => .ok ()

def Environment.set (env : Environment) (name : Text) (value : Json) : Except Fault Environment := do
  systemEncodable name
  let v ← match value with
    | .str v => pure v
    | _ => throw (.host (.textExpected value.kindName))
  systemEncodable v
  if name.codes.contains 0 || v.codes.contains 0 then throw (.host .embeddedNull)
  if name.codes.contains 0x3D then throw (.host .illegalVariableName)
  if name.isEmpty then throw (.host .invalidArgument)
  pure (if env.any (·.1 == name) then env.map fun e => if e.1 == name then (name, v) else e
    else env ++ [(name, v)])

def Environment.setAll (env : Environment) (vars : List (Text × Json)) : Except Fault Environment :=
  vars.foldlM (fun e (k, v) => e.set k v) env

def readIntText (s : Text) : Except Fault Int :=
  match Text.readInt s with
  | .ok n => .ok n
  | .error .malformed => .error (.host (.badIntText s))
  | .error (.tooLong n) => .error (.host (.intTextTooLong n))

namespace Settings

def fromEnvironment (env : Environment) : Except Fault Settings := do
  let get (name : String) (default : Text) : Text :=
    (env.lookup (Text.ofString ("METADEP_" ++ name))).getD default
  let trace ← readIntText (get "TRACE_LEVEL" "0")
  let depthText := get "MAX_DEPTH" "256"
  let maxDepth ← if Text.isBlankText depthText then pure none
    else some <$> readIntText depthText
  let size ← readIntText (get "NOTIFICATION_LOG_SIZE" "10000")
  pure { environment := .str (get "ENVIRONMENT" "development")
         registry := { traceLevel := trace, maxDepth
                       record := Text.lowerIs (get "RECORD_NOTIFICATIONS" "false") "true"
                       journalSize := size }
         logging := { level := get "LOG_LEVEL" "INFO"
                      format := get "LOG_FORMAT" defaultLogFormat
                      logFile := env.lookup (Text.ofString "METADEP_LOG_FILE") } }

end Settings

end Invalidation
