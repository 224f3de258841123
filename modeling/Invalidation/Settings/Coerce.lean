import Invalidation.Settings.Environment
import Invalidation.Json.Access
import Invalidation.Log

namespace Invalidation

abbrev Loading := ExceptT Fault (StateM (Array LogLine))

def Loading.log (l : LogLine) : Loading Unit := modify (·.push l)

def Loading.lift {α : Type} : Except Fault α → Loading α
  | .ok a => pure a
  | .error f => throw f

-- The settings a document may set.
inductive Field where
  | traceLevel
  | maxDepth
  | record
  | journalSize
  | level
  | format
  | logFile
deriving Repr, DecidableEq

namespace Field

def find? : String → String → Option Field
  | "registry", "trace_level" => some .traceLevel
  | "registry", "max_depth" => some .maxDepth
  | "registry", "record_notifications" => some .record
  | "registry", "notification_log_size" => some .journalSize
  | "logging", "level" => some .level
  | "logging", "format" => some .format
  | "logging", "log_file" => some .logFile
  | _, _ => none

def kind : Field → SettingKind
  | .traceLevel | .maxDepth | .journalSize => .int
  | .record => .bool
  | .level | .format | .logFile => .str

def nullable : Field → Bool
  | .maxDepth | .logFile => true
  | _ => false

def findText? (group : String) (key : Text) : Option Field := key.toString?.bind (find? group)

end Field

def toIntSetting (group key : String) (v : Json) : Except Fault Int :=
  let refuse : Except Fault Int := .error (.configuration (.wrongKind group key .int v))
  match v with
  | .bool b => .error (.configuration (.truthForInt group key b))
  | .int n => .ok n
  | .float x =>
    match Decimal.Binary.ofFloat x with
    | .nan => refuse
    | .infinite _ => .error (.host .infinityToInt)
    | b => match b.truncate? with
      | some n => .ok n
      | none => refuse
  | .str s =>
    match Text.readInt s with
    | .ok n => .ok n
    | .error _ => refuse
  | _ => refuse

def toBoolSetting (v : Json) : Bool :=
  match v with
  | .str s => Text.lowerIs s "true"
  | v => v.isTruthy

def Settings.set (s : Settings) (group key : String) (f : Field) (v : Json) :
    Except Fault Settings := do
  if v matches .null then
    if f.nullable then
      return match f with
        | .maxDepth => { s with registry := { s.registry with maxDepth := none } }
        | _ => { s with logging := { s.logging with logFile := none } }
    else throw (.configuration (.nullSetting group key))
  match f with
  | .traceLevel => pure { s with registry := { s.registry with traceLevel := ← toIntSetting group key v } }
  | .maxDepth => pure { s with registry := { s.registry with maxDepth := some (← toIntSetting group key v) } }
  | .journalSize => pure { s with registry := { s.registry with journalSize := ← toIntSetting group key v } }
  | .record => pure { s with registry := { s.registry with record := toBoolSetting v } }
  | .level => pure { s with logging := { s.logging with level := v.display } }
  | .format => pure { s with logging := { s.logging with format := v.display } }
  | .logFile => pure { s with logging := { s.logging with logFile := some v.display } }

def Settings.setGroup (group : String) : Settings → List (Text × Json) → Loading Settings
  | s, [] => pure s
  | s, (key, v) :: rest => do
    match key.toString?, Field.findText? group key with
    | some k, some f => Settings.setGroup group (← Loading.lift (s.set group k f v)) rest
    | _, _ =>
      Loading.log ⟨.warning, .settings, Text.ofString ("Ignoring unknown " ++ group ++ " setting: ") ++ key⟩
      Settings.setGroup group s rest

def Settings.fromDocument (env : Environment) (data : Json) : Loading Settings := do
  let s ← Loading.lift (fromEnvironment env)
  let s ← if ← Loading.lift (Json.memberOf "environment" data) then
      pure { s with environment := ← Loading.lift (Json.index "environment" data) }
    else pure s
  let registry ← Loading.lift (Json.getOr "registry" (.obj []) data >>= Json.items)
  let s ← s.setGroup "registry" registry
  let logging ← Loading.lift (Json.getOr "logging" (.obj []) data >>= Json.items)
  s.setGroup "logging" logging

end Invalidation
