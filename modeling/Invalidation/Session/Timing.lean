import Invalidation.Stopwatch
import Invalidation.Session.Script

namespace Invalidation.Session

-- A stopwatch and its clock.
structure Bench where
  watch : Stopwatch
  clock : Float

def Bench.step (b : Bench) (step : Json) : Except Fault (Bench × Json) := do
  let op ← Json.subscript "op" step
  match op.name? with
  | some "enter" => pure ({ b with watch := ← b.watch.enter b.clock }, .null)
  | some "exit" =>
    pure ({ b with watch := ← b.watch.exit b.clock (← Json.subscript "remaining" step) }, .null)
  | some "set_responsible" =>
    pure ({ b with watch := { b.watch with responsible := ← Json.subscript "component" step } },
      .null)
  | some "advance" =>
    pure ({ b with clock := ← Json.addToFloat b.clock (← Json.subscript "seconds" step) }, .null)
  | some "timings" => pure (b, .arr ((← b.watch.sorted).map Stopwatch.entryJson))
  | some "total" => pure (b, b.watch.total)
  | some "reset" => pure ({ b with watch := b.watch.reset }, .null)
  | some "responsible" => pure (b, b.watch.responsible)
  | _ => throw (.badRequest (.unknownOp op))

def Bench.run (b : Bench) : List Json → Except Fault (List Json)
  | [] => .ok []
  | s :: ss => do
    let (b, r) ← b.step s
    pure (r :: (← b.run ss))

def timing (req : Json) : Json :=
  let run : Except Fault (List Json) := do
    let b : Bench := ⟨.new, ← clockOf req⟩
    b.run (← Json.loopItems ((req.get? "steps").getD (.arr [])))
  match run with
  | .ok rs => .obj [("steps", .arr rs)]
  | .error f => f.toJson

def statJson (e : Json × Json) : Except Fault Json := do
  let ms ← e.1.timesFloat 1000.0
  pure (.obj [("component", e.2), ("seconds", e.1),
    ("duration_ms", .float (Decimal.roundPlaces ms 3)), ("ms", .float ms)])

def timingStats (req : Json) : Json :=
  let run : Except Fault (List Json) := do
    let stats ← (← Json.loopItems (← Json.subscript "stats" req)).mapM fun v => do
      let (c, s) ← Json.unpackPair v
      pure (s, c)
    (← Sort.stable Json.pairLess stats).mapM statJson
  match run with
  | .ok rs => .obj [("sorted", .arr rs)]
  | .error f => f.toJson

end Invalidation.Session
