import Invalidation.Settings.Files
import Invalidation.Disk
import Invalidation.Settings.Build
import Invalidation.Registry.Report
import Invalidation.Session.Script

namespace Invalidation.Session

def environmentOf (req : Json) : Except Fault Environment := do
  Environment.setAll [] (← Json.items ((req.get? "env").getD (.obj [])))

def contentOf : Json → Except Fault Text
  | .str t =>
    match Text.unencodable? false t with
    | some (a, b) => .error (.host (.cannotEncode t a b))
    | none => .ok t
  | .null => .error (.host (.writeNotText "None"))
  | v => .error (.host (.writeNotText v.kindName))

def folderOf (req : Json) : Except Fault Disk.Folder := do
  let write (f : Disk.Folder) (file : Text × Json) : Except Fault Disk.Folder := do
    let (f, place) ← (f.create file.1).mapError .host
    pure (f.store place (← contentOf file.2))
  (← Json.items ((req.get? "files").getD (.obj []))).foldlM write Disk.Folder.empty

def pathOf (req : Json) : Except Fault (Option Text) :=
  match req.field "path" with
  | .str p => .ok (if p.isEmpty then none else some p)
  | v => if v.isTruthy then .error (.host (.notAPath v.kindName)) else .ok none

def loaded {α : Type} (run : Loading α) (answer : α → List (Text × Json)) : Json :=
  let (r, logs) := run.run.run #[]
  let logsJson : Text × Json := ("logs", Json.arr (logs.toList.map LogLine.toJson))
  match r with
  | .ok a => .obj (answer a ++ [logsJson])
  | .error f =>
    match f.isRegistryFault, f.toJson with
    | true, .obj ms => .obj (ms ++ [logsJson])
    | _, j => j

def settings (req : Json) : Json :=
  let run : Loading (Settings × Registry) := do
    let env ← Loading.lift (environmentOf req)
    let s ← Settings.fromDocument env ((req.get? "data").getD (.obj []))
    Loading.lift s.validate
    let reg ← s.build (← Loading.lift (schemeOf req))
    pure (s, reg)
  loaded run fun (s, reg) =>
    [("config", s.toJson),
     ("report", match reg.report false with
       | .ok j => j
       | .error f => f.toJson),
     ("recording", match reg.journal with
       | some j => j.given
       | none => .null)]

def loadSettings (req : Json) : Json :=
  let run : Loading Settings := do
    let folder ← Loading.lift (folderOf req)
    let env ← Loading.lift (environmentOf req)
    let path ← Loading.lift (pathOf req)
    Settings.load folder env path
  loaded run fun s => [("config", s.toJson)]

end Invalidation.Session
