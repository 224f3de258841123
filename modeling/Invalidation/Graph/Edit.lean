import Invalidation.Graph.Search
import Invalidation.Identifier.Scheme
import Invalidation.Log

namespace Invalidation

namespace Graph

def admits (g : Graph) (u d : Text) : Bool :=
  u != d && (g.hasEdge u d || !(g.allDependencies u).contains d)

def checkEdge (sc : Scheme) (u d : Json) : Except Fault (Text × Text) := do
  let u ← sc.requireValid u "upstream"
  let d ← sc.requireValid d "downstream"
  pure (u, d)

def isValidEdge (g : Graph) (sc : Scheme) (u d : Json) : Except Fault Bool := do
  let (u, d) ← checkEdge sc u d
  pure (g.admits u d)

def register (g : Graph) (sc : Scheme) (u d : Json) : Except Fault Graph := do
  let (u, d) ← checkEdge sc u d
  if g.admits u d then pure (g.link u d)
  else if u = d then throw (.selfDependency u)
  else throw (.cyclicDependency u d (g.cycleThrough u d))

def deregister (g : Graph) (sc : Scheme) (u d : Json) : Except Fault Graph := do
  let (u, d) ← checkEdge sc u d
  pure (g.unlink u d)

def deregisterAll (g : Graph) (sc : Scheme) (v : Json) : Except Fault (Graph × Option LogLine) := do
  let d ← sc.requireValid v "downstream"
  let ups := (g.dependenciesOf d).toList
  if ups.isEmpty then pure (g, none)
  else
    let g' ← ups.foldlM (fun g u => g.deregister sc (.str u) v) g
    pure (g', some ⟨.debug, .graph, s!"Deregistered {ups.length} upstream dependencies of " ++ d⟩)

def downstreamOfValue (g : Graph) (sc : Scheme) (u : Json) : Except Fault IdSet := do
  pure (g.downstreamOf (← sc.requireValid u "upstream"))

def dependenciesOfValue (g : Graph) (sc : Scheme) (d : Json) : Except Fault IdSet := do
  pure (g.dependenciesOf (← sc.requireValid d "downstream"))

def allDownstreamOfValue (g : Graph) (sc : Scheme) (u : Json) : Except Fault IdSet := do
  pure (g.allDownstream (← sc.requireValid u "upstream"))

def allDependenciesOfValue (g : Graph) (sc : Scheme) (d : Json) : Except Fault IdSet := do
  pure (g.allDependencies (← sc.requireValid d "downstream"))

def hasEdgeValue (g : Graph) (u d : Json) : Except Fault Bool :=
  match u with
  | .str u =>
    if (g.down.keys.contains u) then
      match d with
      | .str d => .ok (g.hasEdge u d)
      | .arr _ | .obj _ => .error (.host (.unhashable d.kindName))
      | _ => .ok false
    else .ok false
  | .arr _ | .obj _ => .error (.host (.unhashable u.kindName))
  | _ => .ok false

end Graph

end Invalidation
