import Invalidation.Proofs.Sorting
import Invalidation.Proofs.Reportable

namespace Invalidation

open Decimal

namespace Report

variable {v : Json} {n : Int}

variable {es : List (Json × Float)}

end Report

namespace Stopwatch

end Stopwatch

namespace Registry

-- What a report given shows of a registry, with its time entries `es`: the graph's counts and
-- edges, the observers' kinds in order, the trace level and the limit as integers, the depth, and
-- the entries in order with their durations in milliseconds.
structure Shows (r : Registry) (withEdges : Bool) (es : List (Json × Float)) (v : Json) : Prop where
  edgeCount : v.get? "edge_count" = r.graph.toJson.get? "edge_count"
  identifierCount : v.get? "identifier_count" = r.graph.toJson.get? "identifier_count"
  edges : v.get? "edges" = if withEdges then r.graph.toJson.get? "edges" else some (.arr [])
  observers : v.get? "observers" = some (.arr (r.roster.observers.map (·.kind)))
  trace : ∃ n, Report.integer r.trace = .ok n ∧ 0 ≤ n ∧ v.get? "trace_level" = some (.int n)
  depth : v.get? "depth" = some (.int r.depth)
  limit : r.maxDepth = none ∧ v.get? "max_depth" = some .null ∨
    ∃ m n, r.maxDepth = some m ∧ Report.integer m = .ok n ∧ 1 ≤ n ∧
      v.get? "max_depth" = some (.int n)
  timings : v.get? "timings" = some (.arr (es.map fun e =>
    .obj [("component", e.1), ("duration_ms", .float (Stopwatch.millis e.2))]))

variable {r : Registry} {es : List (Json × Float)}

end Registry

namespace Script

end Script

end Invalidation
