import Invalidation.Settings.Coerce
import Invalidation.Json.Read
import Invalidation.Disk

namespace Invalidation

open Disk

def defaultSettingsPaths : List Text := ["./metadep.json", "./config/metadep.json"].map Text.ofString

namespace Settings

def fromFile (folder : Folder) (env : Environment) (path : Text) : Loading Settings := do
  if !(← Loading.lift ((folder.isPresent path).mapError .host)) then
    Loading.log ⟨.warning, .settings, Text.ofString "Config file not found: " ++ path ++ ", using defaults"⟩
    Loading.lift (fromEnvironment env)
  else
    let text ← Loading.lift ((folder.read path).mapError .host)
    match Json.read (String.ofList (text.codes.map Char.ofNat)) with
    | .ok data => fromDocument env data
    | .error .malformed => throw (.configuration (.invalidFile path))
    | .error (.intTooLong n) => throw (.host (.intTextTooLong n))

def fromDefaults (folder : Folder) (env : Environment) : List Text → Loading Settings
  | [] => Loading.lift (fromEnvironment env)
  | p :: ps => do
    if ← Loading.lift ((folder.isPresent p).mapError .host) then
      let s ← fromFile folder env p
      Loading.log ⟨.info, .settings, Text.ofString "Loaded config from " ++ p⟩
      pure s
    else fromDefaults folder env ps

def load (folder : Folder) (env : Environment) (path : Option Text) : Loading Settings := do
  let s ← match path with
    | some p =>
      if p.isEmpty then fromDefaults folder env defaultSettingsPaths else fromFile folder env p
    | none => fromDefaults folder env defaultSettingsPaths
  Loading.lift s.validate
  pure s

end Settings

end Invalidation
