import Invalidation.Registry.Basic

namespace Invalidation

namespace Graph

def edgeJson (e : Text × Text) : Json := .obj [("upstream", .str e.1), ("downstream", .str e.2)]

def toJson (g : Graph) : Json :=
  .obj [("edge_count", .int g.size), ("identifier_count", .int g.identifiers.size),
    ("edges", .arr (g.edges.map edgeJson))]

end Graph

namespace Report

def wordBound : Float := 9223372036854775808.0

def integer : Json → Except String Int
  | .int n => .ok n
  | .bool b => .ok (if b then 1 else 0)
  | .float x =>
    if x.isNaN || x.isInf then .error "finite_number"
    else
      match (Decimal.Binary.ofFloat x).toInt? with
      | none => .error "int_from_float"
      | some n => if -wordBound < x && x < wordBound then .ok n else .error "int_parsing_size"
  | _ => .error "int_type"

def integerFrom (least : Int) (v : Json) : Except String Int := do
  let n ← integer v
  if n < least then throw "greater_than_equal"
  pure n

def text : Json → Except String Text
  | .str s => .ok s
  | _ => .error "string_type"

def problems (checks : List (String × Except String Unit)) : List ReportProblem :=
  checks.filterMap fun (place, r) =>
    match r with
    | .ok () => none
    | .error check => some ⟨place, check⟩

def require (ps : List ReportProblem) : Except Fault Unit :=
  if ps.isEmpty then .ok () else .error (.invalidReport ps)

def timing (e : Json × Float) : Except Fault Json := do
  let ms := Stopwatch.millis e.2
  require (problems [("component", (text e.1).map fun _ => ()),
    ("duration_ms", if ms ≥ 0.0 then .ok () else .error "greater_than_equal")])
  pure (.obj [("component", e.1), ("duration_ms", .float ms)])

def shown {α : Type} (f : α → Json) : Except String α → Json
  | .ok a => f a
  | .error _ => .null

end Report

namespace Registry

def maxDepthJson (r : Registry) : Json := r.maxDepth.getD .null

def stateJson (r : Registry) : Json :=
  .obj [("depth", .int r.depth), ("notification_count", .int r.count),
    ("max_depth", r.maxDepthJson), ("trace_level", r.trace)]

def report (r : Registry) (withEdges : Bool) : Except Fault Json := do
  let timings ← (← r.watch.sorted).mapM Report.timing
  let primary : Except String (Option Text) := match r.roster.primary.map (·.kind) with
    | none | some Json.null => .ok none
    | some k => some <$> Report.text k
  let observers := r.roster.observers.map fun o => Report.text o.kind
  let trace := Report.integerFrom 0 r.trace
  let maxDepth : Except String (Option Int) := match r.maxDepth with
    | none => .ok none
    | some m => some <$> Report.integerFrom 1 m
  let unit {α : Type} (c : Except String α) : Except String Unit := c.map fun _ => ()
  Report.require (Report.problems ([("primary_consumer", unit primary)] ++
    observers.zipIdx.map (fun (c, i) => (s!"observers.{i}", unit c)) ++
    [("trace_level", unit trace), ("max_depth", unit maxDepth)]))
  pure (.obj [("edge_count", .int r.graph.size),
    ("identifier_count", .int r.graph.identifiers.size),
    ("primary_consumer", Report.shown Json.ofOption primary),
    ("observers", .arr (observers.map (Report.shown .str))),
    ("trace_level", Report.shown .int trace), ("depth", .int r.depth),
    ("max_depth", Report.shown (fun m => m.elim .null .int) maxDepth),
    ("notification_count", .int r.count), ("timings", .arr timings),
    ("edges", .arr (if withEdges then r.graph.edges.map Graph.edgeJson else []))])

end Registry

end Invalidation
