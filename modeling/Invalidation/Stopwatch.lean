import Invalidation.Json.Order
import Invalidation.Sort
import Invalidation.Decimal.Round

namespace Invalidation

def unattributed : Text := "unattributed"

-- Time charged per component, and the running frame.
structure Stopwatch where
  totals : List (Json × Float)
  started : Option Float
  responsible : Json
deriving Inhabited

namespace Stopwatch

def new : Stopwatch := ⟨[], none, .str unattributed⟩

def totalOf? (w : Stopwatch) (c : Json) : Option Float :=
  (w.totals.find? fun e => Json.equiv e.1 c).map (·.2)

def charge (w : Stopwatch) (duration : Float) : Except Fault Stopwatch := do
  let c := w.responsible
  unless c.isHashable do throw (.host (.unhashable c.kindName))
  let t := (w.totalOf? c).getD 0.0 + duration
  pure { w with totals := if w.totals.any (fun e => Json.equiv e.1 c) then
    w.totals.map fun e => if Json.equiv e.1 c then (e.1, t) else e else w.totals ++ [(c, t)] }

def enter (w : Stopwatch) (now : Float) : Except Fault Stopwatch := do
  let w ← match w.started with
    | some s => w.charge (now - s)
    | none => pure w
  pure { w with started := some now }

-- Closes a frame at clock reading `now`; only the outermost one, with no frames remaining, stops
-- the stopwatch. The frames remaining are asked about first, so a count that does not compare with
-- zero is a fault even with no frame open.
def exit (w : Stopwatch) (now : Float) (remaining : Json) : Except Fault Stopwatch := do
  if ← Json.relate .gt remaining (.int 0) then return w
  match w.started with
  | none => pure w
  | some s =>
    let w ← w.charge (now - s)
    pure { w with started := none, responsible := .str unattributed }

def before (a b : Json × Float) : Except Fault Bool :=
  if a.2 == b.2 then
    if Json.equiv a.1 b.1 then .ok false else Json.relate .lt a.1 b.1
  else .ok (a.2 < b.2)

def sorted (w : Stopwatch) : Except Fault (List (Json × Float)) := Sort.stable before w.totals

def total (w : Stopwatch) : Json :=
  if w.totals.isEmpty then .int 0 else .float (w.totals.foldl (fun s e => s + e.2) 0.0)

def reset (w : Stopwatch) : Stopwatch := { w with totals := [] }

def millis (seconds : Float) : Float := seconds * 1000.0

def entryJson (e : Json × Float) : Json :=
  .obj [("component", e.1), ("seconds", .float e.2),
    ("duration_ms", .float (Decimal.roundPlaces (millis e.2) 3))]

end Stopwatch

end Invalidation
