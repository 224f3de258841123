import Invalidation.Script.Play
import Invalidation.Identifier.Dynamic

namespace Invalidation.Session

open Script

def schemeOf (req : Json) : Except Fault Scheme :=
  match req.get? "scheme" with
  | none | some .null => .ok .standard
  | some v =>
    match v.name? with
    | some "default" => .ok .standard
    | some "slash" => .ok .slash
    | _ => .error (.badRequest (.unknownScheme v))

def maxDepthOf (req : Json) : Option Json :=
  match req.get? "max_depth" with
  | none => some defaultMaxDepth
  | some .null => none
  | some m => some m

def journalOf (req : Json) : Except Fault (Option Journal) :=
  match req.field "record" with
  | .null => .ok none
  | v =>
    match v.number? with
    | some (.int n) =>
      if Journal.maxCapacity < n ∨ n < -Journal.maxCapacity - 1 then
        .error (.host .capacityTooLarge)
      else if n < 0 then .error (.host .negativeCapacity)
      else .ok (some (Journal.new n.toNat v))
    | _ => .error (.host .integerRequired)

def clockOf (req : Json) : Except Fault Float :=
  match req.get? "clock_start" with
  | none => .ok 100.0
  | some v => v.toDouble

-- The answer to a script request. The clock is read first, then the journal, the scheme and the
-- listeners, then the registry is made and last the steps are read. Only a fault of the registry
-- itself is a fault of setting up; any other ends the request.
def script (req : Json) : Json :=
  let setup : Except Fault (Scheme × Cast × Float × Option Journal) := do
    let clock ← clockOf req
    let journal ← journalOf req
    let scheme ← schemeOf req
    let cast ← Cast.ofJson (← Json.loopItems ((req.get? "listeners").getD (.arr [])))
    pure (scheme, cast, clock, journal)
  match setup with
  | .error f => f.toJson
  | .ok (scheme, cast, clock, journal) =>
    let trace := (req.get? "trace_level").getD (.int 0)
    match Registry.new scheme (maxDepthOf req) trace journal with
    | .error f =>
      if f.isRegistryFault then .obj [("init_error", f.toJson), ("logs", .arr [])]
      else f.toJson
    | .ok reg =>
      match Json.loopItems ((req.get? "steps").getD (.arr [])) with
      | .error f => f.toJson
      | .ok steps =>
        let host : Host Stage := ⟨reg, clock, #[], ⟨[], #[]⟩⟩
        match ((runSteps cast steps).run.run host).1 with
        | .ok answers => .obj [("steps", .arr answers)]
        | .error f => f.toJson

end Invalidation.Session
