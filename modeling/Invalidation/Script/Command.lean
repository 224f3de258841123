import Invalidation.Registry.Report
import Invalidation.Json.Access

namespace Invalidation.Script

-- How a membership test presents the edge it looks for.
inductive EdgeForm where
  | pair
  | edge
  | other
deriving Repr, DecidableEq

inductive Command where
  | register (u d : Json)
  | deregister (u d : Json)
  | deregisterAll (d : Json)
  | isValid (u d : Json)
  | downstream (u : Json)
  | dependencies (d : Json)
  | allDownstream (u : Json)
  | allDependencies (d : Json)
  | has (u d : Json)
  | contains (u d : Json) (form : EdgeForm)
  | edges
  | identifiers
  | size
  | graphDict
  | clear
  | notify (u : Json)
  | addListener (who : Json)
  | removeListener (who : Json)
  | listeners
  | listenerCount
  | setTrace (level : Json)
  | advance (seconds : Json)
  | timings
  | totalSeconds
  | resetTimings
  | responsible
  | state
  | report (withEdges : Bool)
  | logQuery (changed downstream phases notification limit : Json)
  | logRecent (count : Json)
  | logLength
  | logDict
  | logClear
  | fail (message : Text)

def memberOr (step : Json) (key : Text) (default : Json) : Json :=
  (step.get? key).getD default

def phasesOf : Json → Except Fault (List Phase)
  | .null => .ok []
  | v => do (← Json.loopItems v).mapM Phase.ofJson

def Command.ofJson (step : Json) : Except Fault Command := do
  let op ← Json.subscript "op" step
  let f := step.field
  match op.name? with
  | some "register" => pure (.register (f "upstream") (f "downstream"))
  | some "deregister" => pure (.deregister (f "upstream") (f "downstream"))
  | some "deregister_all" => pure (.deregisterAll (f "downstream"))
  | some "is_valid" => pure (.isValid (f "upstream") (f "downstream"))
  | some "downstream" => pure (.downstream (f "id"))
  | some "upstream" => pure (.dependencies (f "id"))
  | some "all_downstream" => pure (.allDownstream (f "id"))
  | some "all_upstream" => pure (.allDependencies (f "id"))
  | some "has" => pure (.has (f "upstream") (f "downstream"))
  | some "contains" =>
    let form := match (f "form").name? with
      | some "edge" => EdgeForm.edge
      | some "value" => .other
      | _ => .pair
    pure (.contains (f "upstream") (f "downstream") form)
  | some "edges" => pure .edges
  | some "identifiers" => pure .identifiers
  | some "len" => pure .size
  | some "graph_dict" => pure .graphDict
  | some "clear" => pure .clear
  | some "notify" => pure (.notify (f "id"))
  | some "add_listener" => pure (.addListener (f "listener"))
  | some "remove_listener" => pure (.removeListener (f "listener"))
  | some "listeners" => pure .listeners
  | some "listener_count" => pure .listenerCount
  | some "set_trace" => pure (.setTrace (f "level"))
  | some "advance" => pure (.advance (f "seconds"))
  | some "timings" => pure .timings
  | some "total_seconds" => pure .totalSeconds
  | some "reset_timings" => pure .resetTimings
  | some "responsible" => pure .responsible
  | some "state" => pure .state
  | some "report" => pure (.report (f "include_edges").isTruthy)
  | some "log_query" =>
    pure (.logQuery (f "upstream") (f "downstream") (f "phases") (f "notification")
      (memberOr step "limit" (.int 100)))
  | some "log_recent" => pure (.logRecent (memberOr step "count" (.int 100)))
  | some "log_len" => pure .logLength
  | some "log_dict" => pure .logDict
  | some "log_clear" => pure .logClear
  | some "raise" =>
    pure (.fail (match step.get? "message" with
      | some m => m.display
      | none => "listener failure"))
  | _ => throw (.badRequest (.unknownOp op))

end Invalidation.Script
