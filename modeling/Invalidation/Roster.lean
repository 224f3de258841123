import Invalidation.Fault
import Invalidation.Log

namespace Invalidation

-- A listener as the registry sees it: which one it is, the kind it reports, and whether it is a
-- primary consumer. Two listeners are the same listener when they have the same number.
structure Listener where
  id : Nat
  kind : Json
  primary : Bool

def Listener.same (a b : Listener) : Bool := a.id == b.id

structure Roster where
  primary : Option Listener
  observers : List Listener

namespace Roster

def empty : Roster := ⟨none, []⟩

def add (r : Roster) : Option Listener → Except Fault (Roster × Option LogLine)
  | none => .error .listenerRequired
  | some l =>
    if l.primary then
      match r.primary with
      | some p =>
        if !p.same l then .error (.duplicatePrimary p.kind l.kind)
        else .ok ({ r with primary := some l },
          some ⟨.info, .listeners, Text.ofString "Registered primary consumer " ++ l.kind.display⟩)
      | none => .ok ({ r with primary := some l },
          some ⟨.info, .listeners, Text.ofString "Registered primary consumer " ++ l.kind.display⟩)
    else if r.observers.any l.same then .ok (r, none)
    else .ok ({ r with observers := r.observers ++ [l] },
      some ⟨.debug, .listeners, Text.ofString "Registered observer " ++ l.kind.display⟩)

def remove (r : Roster) : Option Listener → Except Fault (Roster × Option LogLine)
  | none => .error .listenerRequired
  | some l =>
    if l.primary && (r.primary.any l.same) then
      .ok ({ r with primary := none }, some ⟨.info, .listeners, Text.ofString "Removed primary consumer " ++ l.kind.display⟩)
    else if r.observers.any l.same then
      .ok ({ r with observers := r.observers.filter fun o => !o.same l }, none)
    else .ok (r, some ⟨.warning, .listeners, Text.ofString "Listener " ++ l.kind.display ++ " was not registered"⟩)

def count (r : Roster) : Nat := r.observers.length + if r.primary.isSome then 1 else 0

end Roster

end Invalidation
