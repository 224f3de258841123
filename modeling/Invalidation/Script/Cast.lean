import Invalidation.Script.Command
import Invalidation.Json.Access

namespace Invalidation.Script

-- An action of a rule: a command, still as written, and whether its faults are caught.
structure Action where
  step : Json
  catches : Bool

-- A rule of a scripted listener; its actions are the document that lists them.
structure Rule where
  changed : Option Json
  downstream : Option Json
  times : Option Json
  actions : Json

-- A scripted listener and the name the script gives it, which may be any document that can be a
-- key.
structure Actor where
  listener : Listener
  name : Json
  callback : Bool
  rules : List Rule

abbrev Cast := List (Json × Actor)

def admits (pattern : Option Json) (v : Json) : Bool := pattern.all (Json.equals · v)

def Rule.fires (r : Rule) (u : Text) (d : Option Text) (fired : Nat) : Except Fault Bool :=
  if admits r.changed (.str u) && admits r.downstream (Json.ofOption d) then
    match r.times with
    | some t => do return !(← Json.relate .ge (.int fired) t)
    | none => .ok true
  else .ok false

def substitute (u : Text) (d : Option Text) (v : Json) : Json :=
  if Json.equals v (.str "$upstream") then .str u
  else if Json.equals v (.str "$downstream") then Json.ofOption d
  else v

def Action.ofJson (u : Text) (d : Option Text) (v : Json) : Except Fault Action := do
  let members := (← Json.items v).map fun (k, w) => (k, substitute u d w)
  let step : Json := .obj members
  pure ⟨step, (step.field "catch").isTruthy⟩

def Rule.ofJson (v : Json) : Except Fault Rule := do
  let es ← Json.dictEntries v
  pure ⟨Json.entry? es "upstream", Json.entry? es "downstream", Json.entry? es "times",
    (Json.entry? es "do").getD (.arr [])⟩

-- Reads the listener in place `i` of a script, which must be an object with a name. The kind
-- defaults to the name; a callback listener is an observer whatever else it says, and has no rules.
def Actor.ofJson (i : Nat) (v : Json) : Except Fault Actor := do
  let callback := (← Json.getOr "callback" .null v).isTruthy
  let name ← Json.subscript "name" v
  let kind ← Json.getOr "kind" name v
  let primary := (← Json.getOr "primary" .null v).isTruthy
  let rules ← if callback then pure [] else
    (← Json.loopItems (← Json.getOr "rules" (.arr []) v)).mapM Rule.ofJson
  pure ⟨⟨i, kind, !callback && primary⟩, name, callback, rules⟩

def Cast.find? (cast : Cast) (name : Json) : Option Actor :=
  (List.find? (fun e => Json.equiv e.1 name) cast).map (·.2)

def Cast.put (a : Actor) : Cast → Cast
  | [] => [(a.name, a)]
  | e :: es => if Json.equiv e.1 a.name then (e.1, a) :: es else e :: Cast.put a es

def Cast.ofJson (vs : List Json) : Except Fault Cast :=
  vs.zipIdx.foldlM (fun cast (v, i) => do
    let a ← Actor.ofJson i v
    unless a.name.isHashable do throw (.host (.unhashable a.name.kindName))
    pure (Cast.put a cast)) []

def Cast.actor? (cast : Cast) (l : Listener) : Option Actor :=
  (List.find? (fun e => e.2.listener.id == l.id) cast).map (·.2)

end Invalidation.Script
