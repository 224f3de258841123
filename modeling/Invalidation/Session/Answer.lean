import Invalidation.Session.Script
import Invalidation.Session.Timing
import Invalidation.Session.Settings
import Invalidation.Json.Read
import Invalidation.Json.Write

namespace Invalidation.Session

def resultOrFault : Except Fault Json → Json
  | .ok v => .obj [("result", v)]
  | .error f => f.toJson

-- Applies an identifier function to the items of the request's arguments, none when absent. The
-- function's name must be there; then the scheme is read, and the name must be one of the
-- functions.
def identifiers (req : Json) : Except Fault Json := do
  let fn ← Json.subscript "fn" req
  let sc ← schemeOf req
  unless fn.isHashable do throw (.host (.unhashable fn.kindName))
  let f ← match fn.name?.bind Identifier.Function.ofName? with
    | some f => pure f
    | none => throw (.badRequest (.unknownFunction fn))
  let v := (req.get? "args").getD (.arr [])
  let args ← match Json.loopItems v with
    | .ok xs => pure xs
    | .error _ => throw (.host (.notSpreadable f.signature.qualified v.kindName))
  f.call sc args

def answer (req : Json) : Json :=
  match req with
  | .obj _ =>
    let op := req.field "op"
    if !op.isHashable then (Fault.host (.unhashable op.kindName)).toJson
    else
      match op.name? with
      | some "identifiers" => resultOrFault (identifiers req)
      | some "registry" => script req
      | some "timing" => timing req
      | some "timing_stats" => timingStats req
      | some "config" => settings req
      | some "load_config" => loadSettings req
      | _ => (Fault.badRequest (.unknownOp op)).toJson
  | v => (Fault.host (.noAttribute v.kindName "get")).toJson

def respond (line : String) : String :=
  match Json.read line with
  | .ok req => (answer req).render
  | .error _ => (Fault.badRequest .unreadable).toJson.render

end Invalidation.Session
