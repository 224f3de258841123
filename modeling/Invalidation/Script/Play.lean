import Invalidation.Script.Cast
import Invalidation.Registry.Notify

namespace Invalidation.Script

open Run

-- What the scripted listeners keep: how often each rule fired, and the notes of the current
-- command.
structure Stage where
  fired : List ((Nat × Nat) × Nat)
  notes : Array Json

abbrev Play := Run Stage

def note (j : Json) : Play Unit :=
  modify fun h => { h with own := { h.own with notes := h.own.notes.push j } }

def firedCount (key : Nat × Nat) : Play Nat := return ((← get).own.fired.lookup key).getD 0

def countFiring (key : Nat × Nat) : Play Unit := do
  let n ← firedCount key
  modify fun h => { h with own := { h.own with
    fired := (key, n + 1) :: h.own.fired.filter (·.1 != key) } }

def Fault.caught (f : Fault) : Bool :=
  f.isRegistryFault || f matches .listenerFailure _

def runActions (exec : Json → Play Json) (a : Actor) (u : Text) (d : Option Text) :
    List Json → Play Unit
  | [] => pure ()
  | v :: vs => do
    let act ← lift (Action.ofJson u d v)
    let step := act.step
    let op := step.field "op"
    try
      let r ← exec step
      unless r matches .null do
        note (.obj [("listener", a.name), ("op", op), ("result", r)])
    catch f =>
      if act.catches && Fault.caught f then
        note (.obj [("listener", a.name), ("op", op), ("caught", f.toJson)])
      else throw f
    runActions exec a u d vs

def runRules (exec : Json → Play Json) (a : Actor) (u : Text) (d : Option Text) :
    Nat → List Rule → Play Unit
  | _, [] => pure ()
  | i, r :: rs => do
    let key := (a.listener.id, i)
    if ← lift (r.fires u d (← firedCount key)) then
      countFiring key
      runActions exec a u d (← lift (Json.loopItems r.actions))
    runRules exec a u d (i + 1) rs

def resolve (cast : Cast) (who : Json) : Play (Option Listener) :=
  match who with
  | .null => pure none
  | v =>
    if !v.isHashable then throw (.host (.unhashable v.kindName))
    else match cast.find? v with
      | some a => pure (some a.listener)
      | none => throw (.badRequest (.unknownListener v))

def nameOf (cast : Cast) (l : Listener) : Json :=
  match cast.actor? l with
  | some a => a.name
  | none => .null

def journal : Play Journal := do
  match (← registry).journal with
  | some j => pure j
  | none => throw (.badRequest .noJournal)

def changeGraph (f : Registry → Except Fault Graph) : Play Json := do
  let g ← lift (f (← registry))
  modifyRegistry fun r => { r with graph := g }
  pure .null

def idsJson (s : IdSet) : Json := .arr (s.toList.map .str)

def perform (cast : Cast) (react : Reaction Stage) : Command → Play Json
  | .register u d => changeGraph fun r => r.graph.register r.scheme u d
  | .deregister u d => changeGraph fun r => r.graph.deregister r.scheme u d
  | .deregisterAll d => do
    let r ← registry
    let (g, line) ← lift (r.graph.deregisterAll r.scheme d)
    modifyRegistry fun r => { r with graph := g }
    logSome line
    pure .null
  | .isValid u d => do
    let r ← registry
    pure (.bool (← lift (r.graph.isValidEdge r.scheme u d)))
  | .downstream u => do
    let r ← registry
    pure (idsJson (← lift (r.graph.downstreamOfValue r.scheme u)))
  | .dependencies d => do
    let r ← registry
    pure (idsJson (← lift (r.graph.dependenciesOfValue r.scheme d)))
  | .allDownstream u => do
    let r ← registry
    pure (idsJson (← lift (r.graph.allDownstreamOfValue r.scheme u)))
  | .allDependencies d => do
    let r ← registry
    pure (idsJson (← lift (r.graph.allDependenciesOfValue r.scheme d)))
  | .has u d => do pure (.bool (← lift ((← registry).graph.hasEdgeValue u d)))
  | .contains u d form =>
    match form with
    | .other => pure (.bool false)
    | _ => do pure (.bool (← lift ((← registry).graph.hasEdgeValue u d)))
  | .edges => do
    pure (.arr ((← registry).graph.edges.map fun e => .arr [.str e.1, .str e.2]))
  | .identifiers => do pure (idsJson (← registry).graph.identifiers)
  | .size => do pure (.int (← registry).graph.size)
  | .graphDict => do pure (← registry).graph.toJson
  | .clear => do
    modifyRegistry fun r => { r with graph := .empty }
    pure .null
  | .notify u => do
    Run.notify react u
    pure .null
  | .addListener who => do
    let l ← resolve cast who
    let (ro, line) ← lift ((← registry).roster.add l)
    modifyRegistry fun r => { r with roster := ro }
    logSome line
    pure .null
  | .removeListener who => do
    let l ← resolve cast who
    let (ro, line) ← lift ((← registry).roster.remove l)
    modifyRegistry fun r => { r with roster := ro }
    logSome line
    pure .null
  | .listeners => do
    let ro := (← registry).roster
    pure (.obj [("primary", match ro.primary with | some p => nameOf cast p | none => .null),
      ("observers", .arr (ro.observers.map (nameOf cast)))])
  | .listenerCount => do pure (.int (← registry).roster.count)
  | .setTrace level => do
    lift (Registry.checkTrace level)
    modifyRegistry fun r => { r with trace := level }
    log ⟨.info, .registry, Text.ofString "Metadata notification trace level set to " ++ level.display⟩
    pure .null
  | .advance s => do
    let h ← get
    let c ← lift (Json.addToFloat h.clock s)
    set { h with clock := c }
    pure .null
  | .timings => do
    pure (.arr ((← lift (← registry).watch.sorted).map Stopwatch.entryJson))
  | .totalSeconds => do pure (← registry).watch.total
  | .resetTimings => do
    modifyRegistry fun r => { r with watch := r.watch.reset }
    pure .null
  | .responsible => do pure (← registry).watch.responsible
  | .state => do pure (← registry).stateJson
  | .report withEdges => do lift ((← registry).report withEdges)
  | .logQuery u d phases n limit => do
    let j ← journal
    let q : Query := ⟨u, d, ← lift (phasesOf phases), n, limit⟩
    pure (.arr ((← lift (j.query q)).map Entry.toJson))
  | .logRecent n => do
    let es := (← journal).entries.reverse
    let es ← match n, n.number? with
      | .null, _ => pure es
      | _, some (.int c) => pure ((← journal).recent c)
      | _, _ => throw (.host .sliceIndex)
    pure (.arr (es.map Entry.toJson))
  | .logLength => do pure (.int (← journal).entries.length)
  | .logDict => do pure (← journal).toJson
  | .logClear => do
    let j ← journal
    modifyRegistry fun r => { r with journal := some j.clear }
    pure .null
  | .fail m => throw (.listenerFailure m)

mutual
def react (cast : Cast) : Nat → Reaction Stage
  | 0 => fun _ _ _ => throw (.host .tooDeep)
  | n + 1 => fun l u d => do
    let some a := cast.actor? l | pure ()
    note (.obj [("listener", a.name), ("upstream", .str u), ("downstream", Json.ofOption d),
      ("depth", .int (← registry).depth)])
    unless a.callback do runRules (exec cast n) a u d 0 a.rules
def exec (cast : Cast) : Nat → Json → Play Json
  | 0 => fun _ => throw (.host .tooDeep)
  | n + 1 => fun step => do
    let c ← lift (Command.ofJson step)
    perform cast (react cast n) c
end

def allowance : Nat := 2000000

def answerOf (r : Except Fault Json) (h : Host Stage) : Json :=
  let extra : List (Text × Json) := [("calls", Json.arr h.own.notes.toList),
    ("logs", Json.arr (h.logs.toList.map LogLine.toJson))]
  match r with
  | .ok v => .obj (("result", v) :: extra)
  | .error f =>
    match f.toJson with
    | .obj ms => .obj (ms ++ extra)
    | j => j

def runSteps (cast : Cast) : List Json → Play (List Json)
  | [] => pure []
  | step :: steps => do
    modify fun h => { h with logs := #[], own := { h.own with notes := #[] } }
    let r ← tryCatch (Except.ok <$> exec cast allowance step) fun f =>
      match f with
      | .badRequest _ => throw f
      | _ => pure (.error f)
    let answer := answerOf r (← get)
    return answer :: (← runSteps cast steps)

end Invalidation.Script
