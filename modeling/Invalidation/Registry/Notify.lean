import Invalidation.Registry.Basic

namespace Invalidation

namespace Run

variable {σ : Type}

abbrev Reaction (σ : Type) := Listener → Text → Option Text → Run σ Unit

def traceLine (number depth : Nat) (u : Text) (d : Option Text) (phase : Phase)
    (component : Json) : Text :=
  let message := match phase, d with
    | .observer, _ => u ++ " -> " ++ u ++ " [" ++ component.display ++ "]"
    | .viaClass, some d => u ++ " -> " ++ d ++ " [via class]"
    | _, some d => u ++ " -> " ++ d
    | _, none => u ++ " -> None"
  Text.ofString (String.ofList (Text.hexDigits 8 number ++ List.replicate depth ' ')) ++ message

def dispatch (react : Reaction σ) (number : Nat) (l : Listener) (u : Text) (d : Option Text)
    (phase : Phase) : Run σ Unit := do
  let r ← registry
  let component := match d with
    | none => l.kind
    | some d => .str (r.scheme.componentOf d)
  if ← lift (Json.relate .ge r.trace (.int phase.threshold)) then
    log ⟨.debug, .dispatcher, traceLine number r.depth u d phase component⟩
  if let some j := r.journal then
    modifyRegistry fun r => { r with journal := some (j.append ⟨number, r.depth, u, d, phase, component⟩) }
  modifyRegistry fun r => { r with watch := { r.watch with responsible := component } }
  react l u d

def directPhase (react : Reaction σ) (number : Nat) (u : Text) :
    List Text → List Text → Run σ (List Text)
  | [], told => pure told
  | d :: ds, told => do
    match (← registry).roster.primary with
    | none => pure told
    | some p =>
      dispatch react number p u (some d) .direct
      directPhase react number u ds (d :: told)

def classPhase (react : Reaction σ) (number : Nat) (u : Text) (told : List Text) :
    List Text → Run σ Unit
  | [] => pure ()
  | d :: ds => do
    if told.contains d || d == u then classPhase react number u told ds
    else
      match (← registry).roster.primary with
      | none => pure ()
      | some p =>
        dispatch react number p u (some d) .viaClass
        classPhase react number u told ds

def observerPhase (react : Reaction σ) (number : Nat) (u : Text) : List Listener → Run σ Unit
  | [] => pure ()
  | o :: os => do
    dispatch react number o u none .observer
    observerPhase react number u os

-- The primary consumer is told of each identifier directly downstream of `u`, then, for an
-- instance, of each one downstream of its class not told yet and other than `u`; the observers
-- come last. Each phase reads its identifiers or observers when it starts, and the primary ones
-- stop as soon as no primary consumer is registered.
def phases (react : Reaction σ) (number : Nat) (u : Text) : Run σ Unit := do
  let r ← registry
  if r.roster.primary.isSome then
    let told ← directPhase react number u (r.graph.downstreamOf u).toList []
    if !r.scheme.isClassLevel u then
      let c ← lift (r.scheme.requireValid (.str (r.scheme.classOf u)) "upstream")
      classPhase react number u told ((← registry).graph.downstreamOf c).toList
  observerPhase react number u (← registry).roster.observers

def openFrame : Run σ Unit := do
  let h ← get
  let w ← lift (h.registry.watch.enter h.clock)
  modifyRegistry fun r => { r with watch := w }

def closeFrame : Run σ Unit := do
  let h ← get
  let w ← lift (h.registry.watch.exit h.clock (.int h.registry.depth))
  modifyRegistry fun r => { r with watch := w }

def notify (react : Reaction σ) (v : Json) : Run σ Unit := do
  let r ← registry
  let u ← lift (r.scheme.requireValid v "upstream")
  if let some m := r.maxDepth then
    if ← lift (Json.relate .ge (.int r.depth) m) then throw (.depthExceeded u m)
  modifyRegistry fun r => { r with count := r.count + 1 }
  let number := (← registry).count
  openFrame
  modifyRegistry fun r => { r with depth := r.depth + 1 }
  andFinally (phases react number u) do
    modifyRegistry fun r => { r with depth := r.depth - 1 }
    closeFrame

end Run

end Invalidation
