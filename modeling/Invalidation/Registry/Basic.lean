import Invalidation.Graph.Edit
import Invalidation.Roster
import Invalidation.Stopwatch
import Invalidation.Journal

namespace Invalidation

def defaultMaxDepth : Json := .int 256

structure Registry where
  scheme : Scheme
  graph : Graph
  roster : Roster
  watch : Stopwatch
  journal : Option Journal
  maxDepth : Option Json
  trace : Json
  depth : Nat
  count : Nat

namespace Registry

def checkMaxDepth : Option Json → Except Fault Unit
  | some m => do if ← Json.relate .lt m (.int 0) then throw (.configuration (.negativeMaxDepth m))
  | none => pure ()

def checkTrace (level : Json) : Except Fault Unit := do
  if ← Json.relate .lt level (.int 0) then throw (.configuration (.negativeTrace level))

-- A limit that counts as false means no limit; a negative limit or trace level is refused, the
-- limit first.
def new (scheme : Scheme) (maxDepth : Option Json) (trace : Json) (journal : Option Journal) :
    Except Fault Registry := do
  checkMaxDepth maxDepth
  checkTrace trace
  pure { scheme, graph := .empty, roster := .empty, watch := .new, journal
         maxDepth := maxDepth.filter Json.isTruthy
         trace, depth := 0, count := 0 }

end Registry

-- Where a registry runs: the registry, a clock, the lines logged, and the listeners' own state.
structure Host (σ : Type) where
  registry : Registry
  clock : Float
  logs : Array LogLine
  own : σ

abbrev Run (σ : Type) := ExceptT Fault (StateM (Host σ))

namespace Run

variable {σ : Type}

def registry : Run σ Registry := return (← get).registry

def modifyRegistry (f : Registry → Registry) : Run σ Unit :=
  modify fun h => { h with registry := f h.registry }

def log (l : LogLine) : Run σ Unit := modify fun h => { h with logs := h.logs.push l }

def logSome : Option LogLine → Run σ Unit
  | some l => log l
  | none => pure ()

def lift {α : Type} : Except Fault α → Run σ α
  | .ok a => pure a
  | .error f => throw f

def andFinally {α : Type} (body : Run σ α) (last : Run σ Unit) : Run σ α := do
  let r ← tryCatch (Except.ok <$> body) (fun f => pure (.error f))
  last
  lift r

end Run

end Invalidation
