import Invalidation.Proofs.Visits
import Invalidation.Registry.Report

namespace Invalidation

-- Whether a line is one of the dispatcher's trace lines.
def LogLine.isTrace (l : LogLine) : Bool := l.source == .dispatcher

namespace Registry

-- The trace level as a report checks it.
def traceCheck (t : Json) : Except String Unit := (Report.integerFrom 0 t).map fun _ => ()

-- What a registry is besides its trace level and its journal.
def bare (r : Registry) : Registry := { r with trace := .null, journal := none }

-- Registries alike but for their trace levels and journals.
structure Twin (paired : Bool) (r₁ r₂ : Registry) : Prop where
  bare : r₁.bare = r₂.bare
  traced₁ : r₁.trace.number?.isSome
  traced₂ : r₂.trace.number?.isSome
  checked : traceCheck r₁.trace = traceCheck r₂.trace
  journal : ∀ j₁ ∈ r₁.journal, ∀ j₂ ∈ r₂.journal, j₁ = j₂
  attached : paired = true → r₁.journal.isSome = r₂.journal.isSome

namespace Twin

variable {p : Bool} {r₁ r₂ : Registry}

theorem scheme (h : Twin p r₁ r₂) : r₁.scheme = r₂.scheme := (congrArg Registry.scheme h.bare :)

theorem graph (h : Twin p r₁ r₂) : r₁.graph = r₂.graph := (congrArg Registry.graph h.bare :)

theorem roster (h : Twin p r₁ r₂) : r₁.roster = r₂.roster := (congrArg Registry.roster h.bare :)

theorem watch (h : Twin p r₁ r₂) : r₁.watch = r₂.watch := (congrArg Registry.watch h.bare :)

theorem maxDepth (h : Twin p r₁ r₂) : r₁.maxDepth = r₂.maxDepth :=
  (congrArg Registry.maxDepth h.bare :)

theorem depth (h : Twin p r₁ r₂) : r₁.depth = r₂.depth := (congrArg Registry.depth h.bare :)

theorem count (h : Twin p r₁ r₂) : r₁.count = r₂.count := (congrArg Registry.count h.bare :)

-- A change that keeps the trace level and the journal, and reads neither, keeps twins twins.
theorem map {f : Registry → Registry} (hb : ∀ r, (f r).bare = f r.bare)
    (ht : ∀ r, (f r).trace = r.trace) (hj : ∀ r, (f r).journal = r.journal) (h : Twin p r₁ r₂) :
    Twin p (f r₁) (f r₂) where
  bare := by rw [hb, hb, h.bare]
  traced₁ := by rw [ht]; exact h.traced₁
  traced₂ := by rw [ht]; exact h.traced₂
  checked := by rw [ht, ht]; exact h.checked
  journal := by rw [hj, hj]; exact h.journal
  attached := by rw [hj, hj]; exact h.attached

-- Setting trace levels, numbers that a report checks alike, keeps twins twins.
theorem setTrace (h : Twin p r₁ r₂) {a b : Json} (ha : a.number?.isSome) (hb : b.number?.isSome)
    (hab : traceCheck a = traceCheck b) : Twin p { r₁ with trace := a } { r₂ with trace := b } :=
  ⟨h.bare, ha, hb, hab, h.journal, h.attached⟩

-- Setting the same journal on both sides keeps twins twins.
theorem setJournal (h : Twin p r₁ r₂) (j : Journal) :
    Twin p { r₁ with journal := some j } { r₂ with journal := some j } :=
  ⟨h.bare, h.traced₁, h.traced₂, h.checked, fun _ h₁ _ h₂ => (Option.mem_some_iff.1 h₁).symm.trans
    (Option.mem_some_iff.1 h₂), fun _ => rfl⟩

end Twin

end Registry

namespace Host

variable {σ : Type}

-- Hosts alike but for the trace levels and journals of their registries, with own states related
-- by `E`.
structure Twin (paired : Bool) (E : σ → σ → Prop) (h₁ h₂ : Host σ) : Prop where
  registry : h₁.registry.Twin paired h₂.registry
  clock : h₁.clock = h₂.clock
  own : E h₁.own h₂.own

-- Logs alike but for the dispatcher's trace lines.
def SameLog (h₁ h₂ : Host σ) : Prop :=
  h₁.logs.toList.filter (!·.isTrace) = h₂.logs.toList.filter (!·.isTrace)

end Host

namespace Run

variable {σ α β : Type} {p : Bool} {E : σ → σ → Prop} {R : α → α → Prop} {S : β → β → Prop}

-- Two outcomes alike: the same fault, or results related by `R`.
def Alike (R : α → α → Prop) : Except Fault α → Except Fault α → Prop
  | .ok a₁, .ok a₂ => R a₁ a₂
  | .error f₁, .error f₂ => f₁ = f₂
  | _, _ => False

theorem Alike.imp {R' : α → α → Prop} (hR : ∀ a₁ a₂, R a₁ a₂ → R' a₁ a₂) :
    ∀ {x₁ x₂ : Except Fault α}, Alike R x₁ x₂ → Alike R' x₁ x₂
  | .ok a₁, .ok a₂, h => hR a₁ a₂ h
  | .error _, .error _, h => h
  | .ok _, .error _, h => h.elim
  | .error _, .ok _, h => h.elim

-- Two runs that ended alike: outcomes alike, in twin hosts with logs alike.
structure Ended (p : Bool) (E : σ → σ → Prop) (R : α → α → Prop)
    (q₁ q₂ : Except Fault α × Host σ) : Prop where
  outcome : Alike R q₁.1 q₂.1
  host : Host.Twin p E q₁.2 q₂.2
  log : Host.SameLog q₁.2 q₂.2

-- From twin hosts with logs alike, `m₁` and `m₂` end alike.
def Twin (p : Bool) (E : σ → σ → Prop) (R : α → α → Prop) (m₁ m₂ : Run σ α) : Prop :=
  ∀ h₁ h₂, Host.Twin p E h₁ h₂ → Host.SameLog h₁ h₂ → Ended p E R (m₁.exec h₁) (m₂.exec h₂)

section Twin

variable {m₁ m₂ : Run σ α}

theorem twin_pure {a₁ a₂ : α} (h : R a₁ a₂) : Twin p E R (pure a₁) (pure a₂) :=
  fun _ _ ht hl => ⟨h, ht, hl⟩

theorem twin_throw (f : Fault) : Twin p E R (throw f) (throw f) :=
  fun _ _ ht hl => ⟨rfl, ht, hl⟩

theorem twin_lift_alike {x₁ x₂ : Except Fault α} (hx : Alike R x₁ x₂) :
    Twin p E R (lift x₁) (lift x₂) := by
  intro _ _ ht hl
  rw [exec_lift, exec_lift]
  exact ⟨hx, ht, hl⟩

theorem Twin.mono {R' : α → α → Prop} (h : Twin p E R m₁ m₂)
    (hR : ∀ a₁ a₂, R a₁ a₂ → R' a₁ a₂) : Twin p E R' m₁ m₂ := by
  intro h₁ h₂ ht hl
  obtain ⟨ho, ht', hl'⟩ := h h₁ h₂ ht hl
  exact ⟨ho.imp hR, ht', hl'⟩

theorem twin_bind {f₁ f₂ : α → Run σ β} (hm : Twin p E R m₁ m₂)
    (hf : ∀ a₁ a₂, R a₁ a₂ → Twin p E S (f₁ a₁) (f₂ a₂)) : Twin p E S (m₁ >>= f₁) (m₂ >>= f₂) := by
  intro h₁ h₂ ht hl
  obtain ⟨ho, ht', hl'⟩ := hm h₁ h₂ ht hl
  rw [exec_bind, exec_bind]
  rcases hq₁ : m₁.exec h₁ with ⟨_ | a₁, k₁⟩ <;> rcases hq₂ : m₂.exec h₂ with ⟨_ | a₂, k₂⟩ <;>
    simp only [hq₁, hq₂, Alike] at ho ht' hl'
  · exact ⟨ho, ht', hl'⟩
  · exact hf a₁ a₂ ho k₁ k₂ ht' hl'

-- After a step that may fail, the parts need only be twins where the step gives a result.
theorem twin_lift_bind {x : Except Fault α} {f₁ f₂ : α → Run σ β}
    (hf : ∀ a, x = .ok a → Twin p E S (f₁ a) (f₂ a)) :
    Twin p E S (lift x >>= f₁) (lift x >>= f₂) := by
  intro h₁ h₂ ht hs
  cases x with
  | error e =>
    simp only [exec_bind, exec_lift]
    exact ⟨rfl, ht, hs⟩
  | ok a =>
    simp only [exec_bind, exec_lift]
    exact hf a rfl h₁ h₂ ht hs

theorem twin_tryCatch {k₁ k₂ : Fault → Run σ α} (hm : Twin p E R m₁ m₂)
    (hk : ∀ f, Twin p E R (k₁ f) (k₂ f)) : Twin p E R (tryCatch m₁ k₁) (tryCatch m₂ k₂) := by
  intro h₁ h₂ ht hl
  obtain ⟨ho, ht', hl'⟩ := hm h₁ h₂ ht hl
  rw [exec_tryCatch, exec_tryCatch]
  rcases hq₁ : m₁.exec h₁ with ⟨_ | a₁, k₁⟩ <;> rcases hq₂ : m₂.exec h₂ with ⟨_ | a₂, k₂⟩ <;>
    simp only [hq₁, hq₂, Alike] at ho ht' hl'
  · subst ho
    exact hk _ k₁ k₂ ht' hl'
  · exact ⟨ho, ht', hl'⟩

-- The last step runs from twin hosts whether or not the bodies failed, and a fault of it wins.
theorem twin_andFinally {l₁ l₂ : Run σ Unit} (hb : Twin p E R m₁ m₂) (hl : Twin p E Eq l₁ l₂) :
    Twin p E R (andFinally m₁ l₁) (andFinally m₂ l₂) := by
  intro h₁ h₂ ht hs
  obtain ⟨ho, ht', hs'⟩ := hb h₁ h₂ ht hs
  obtain ⟨lo, lt, ls⟩ := hl _ _ ht' hs'
  rw [exec_andFinally, exec_andFinally]
  rcases hq₁ : l₁.exec (m₁.exec h₁).2 with ⟨_ | _, k₁⟩ <;>
    rcases hq₂ : l₂.exec (m₂.exec h₂).2 with ⟨_ | _, k₂⟩ <;>
    simp only [hq₁, hq₂, Alike] at lo lt ls
  · exact ⟨lo, lt, ls⟩
  · exact ⟨ho, lt, ls⟩

theorem twin_registry : Twin p E (Registry.Twin p) registry registry :=
  fun _ _ ht hl => ⟨ht.registry, ht, hl⟩

-- A result read from what twins share.
theorem twin_read {f : Registry → α} (hf : ∀ r₁ r₂, Registry.Twin p r₁ r₂ → f r₁ = f r₂) :
    Twin p E Eq (registry >>= fun r => pure (f r)) (registry >>= fun r => pure (f r)) :=
  twin_bind twin_registry fun r₁ r₂ hr => by
    rw [hf r₁ r₂ hr]
    exact twin_pure rfl

-- A result computed, possibly failing, from what twins share.
theorem twin_compute {γ : Type} {g : Registry → Except Fault γ} {f : γ → α}
    (hg : ∀ r₁ r₂, Registry.Twin p r₁ r₂ → g r₁ = g r₂) :
    Twin p E Eq (registry >>= fun r => lift (g r) >>= fun c => pure (f c))
      (registry >>= fun r => lift (g r) >>= fun c => pure (f c)) :=
  twin_bind twin_registry fun r₁ r₂ hr => by
    rw [hg r₁ r₂ hr]
    exact twin_lift_bind fun _ _ => twin_pure rfl

theorem twin_modifyRegistry {f : Registry → Registry}
    (hf : ∀ r₁ r₂, Registry.Twin p r₁ r₂ → Registry.Twin p (f r₁) (f r₂)) :
    Twin p E Eq (modifyRegistry f) (modifyRegistry f) :=
  fun _ _ ht hl => ⟨rfl, ⟨hf _ _ ht.registry, ht.clock, ht.own⟩, hl⟩

-- A change of the registry that keeps its trace level and journal and does not read them.
theorem twin_keep {f : Registry → Registry} (hb : ∀ r, (f r).bare = f r.bare)
    (ht : ∀ r, (f r).trace = r.trace) (hj : ∀ r, (f r).journal = r.journal) :
    Twin p E Eq (modifyRegistry f) (modifyRegistry f) :=
  twin_modifyRegistry fun _ _ h => h.map hb ht hj

-- A line logged on both sides keeps the logs alike.
theorem twin_log (l : LogLine) : Twin p E Eq (log l) (log l) := by
  intro h₁ h₂ ht hs
  refine ⟨rfl, ⟨ht.registry, ht.clock, ht.own⟩, ?_⟩
  simp only [exec_log, Host.SameLog, Array.toList_push, List.filter_append] at hs ⊢
  rw [hs]

end Twin

-- Opening and closing a frame read the stopwatch, the clock and the depth, which twins share.
theorem twin_openFrame : Twin p E Eq (openFrame : Run σ Unit) openFrame := by
  intro h₁ h₂ ht hs
  simp only [openFrame, exec_bind, exec_get, exec_lift]
  rw [ht.registry.watch, ht.clock]
  cases h₂.registry.watch.enter h₂.clock with
  | error f => exact ⟨rfl, ht, hs⟩
  | ok w =>
    simp only [exec_modifyRegistry]
    exact ⟨rfl, ⟨ht.registry.map (f := fun r => { r with watch := w }) (fun _ => rfl) (fun _ => rfl)
      (fun _ => rfl), ht.clock, ht.own⟩, hs⟩

theorem twin_closeFrame : Twin p E Eq (closeFrame : Run σ Unit) closeFrame := by
  intro h₁ h₂ ht hs
  simp only [closeFrame, exec_bind, exec_get, exec_lift]
  rw [ht.registry.watch, ht.clock, ht.registry.depth]
  cases h₂.registry.watch.exit h₂.clock (.int h₂.registry.depth) with
  | error f => exact ⟨rfl, ht, hs⟩
  | ok w =>
    simp only [exec_modifyRegistry]
    exact ⟨rfl, ⟨ht.registry.map (f := fun r => { r with watch := w }) (fun _ => rfl) (fun _ => rfl)
      (fun _ => rfl), ht.clock, ht.own⟩, hs⟩

section Notify

variable {react₁ react₂ : Reaction σ}

-- Telling a listener keeps twins twins: both append the same record, and a trace line is none of
-- the lines kept.
theorem twin_tell {h₁ h₂ : Host σ} (ht : Host.Twin p E h₁ h₂) (hs : Host.SameLog h₁ h₂) (n : Nat)
    (ph : Phase) (l : Listener) (u : Text) (d : Option Text) :
    Host.Twin p E (tell n ph l u d h₁) (tell n ph l u d h₂) ∧
      Host.SameLog (tell n ph l u d h₁) (tell n ph l u d h₂) := by
  have hr := ht.registry
  have record : record n h₁.registry ph l u d = record n h₂.registry ph l u d := by
    simp only [Run.record, hr.depth, hr.scheme]
  refine ⟨⟨⟨?_, hr.traced₁, hr.traced₂, hr.checked, ?_, ?_⟩, ht.clock, ht.own⟩, ?_⟩
  · show { h₁.registry.bare with
        watch := { h₁.registry.bare.watch with
          responsible := component h₁.registry.bare.scheme l d } } =
      { h₂.registry.bare with
        watch := { h₂.registry.bare.watch with
          responsible := component h₂.registry.bare.scheme l d } }
    rw [hr.bare]
  · intro j₁ hj₁ j₂ hj₂
    obtain ⟨a₁, ha₁, rfl⟩ := Option.mem_map.1 hj₁
    obtain ⟨a₂, ha₂, rfl⟩ := Option.mem_map.1 hj₂
    rw [hr.journal a₁ ha₁ a₂ ha₂, record]
  · intro hp
    simpa [tell] using hr.attached hp
  · -- the dispatcher's line, if any, is a trace line
    have trace : ∀ (xs : Array LogLine) (t : Text),
        (xs.push ⟨.debug, .dispatcher, t⟩).toList.filter (!·.isTrace) =
          xs.toList.filter (!·.isTrace) := by
      intro xs t
      simp [LogLine.isTrace]
    simp only [Host.SameLog, tell] at hs ⊢
    split <;> split <;> simp only [trace, hs]

theorem twin_dispatch {l : Listener} {u : Text} {d : Option Text}
    (hr : Twin p E Eq (react₁ l u d) (react₂ l u d)) (n : Nat) (ph : Phase) :
    Twin p E Eq (dispatch react₁ n l u d ph) (dispatch react₂ n l u d ph) := by
  intro h₁ h₂ ht hs
  rw [exec_dispatch_tell react₁ n l u d ph ht.registry.traced₁,
    exec_dispatch_tell react₂ n l u d ph ht.registry.traced₂]
  obtain ⟨ht', hs'⟩ := twin_tell ht hs n ph l u d
  exact hr _ _ ht' hs'

variable (hr : ∀ l u d, Twin p E Eq (react₁ l u d) (react₂ l u d))
include hr

theorem twin_directPhase (n : Nat) (u : Text) : ∀ xs told,
    Twin p E Eq (directPhase react₁ n u xs told) (directPhase react₂ n u xs told)
  | [], _ => twin_pure rfl
  | d :: ds, told => by
    simp only [directPhase]
    refine twin_bind twin_registry fun r₁ r₂ hreg => ?_
    rw [hreg.roster]
    cases r₂.roster.primary with
    | none => exact twin_pure rfl
    | some q =>
      exact twin_bind (twin_dispatch (hr q u (some d)) n .direct) fun _ _ _ =>
        twin_directPhase n u ds (d :: told)

theorem twin_classPhase (n : Nat) (u : Text) (told : List Text) : ∀ ys,
    Twin p E Eq (classPhase react₁ n u told ys) (classPhase react₂ n u told ys)
  | [] => twin_pure rfl
  | d :: ds => by
    simp only [classPhase]
    by_cases hskip : (told.contains d || d == u) = true
    · simp only [hskip, ite_true]
      exact twin_classPhase n u told ds
    · simp only [hskip, Bool.false_eq_true, ite_false]
      refine twin_bind twin_registry fun r₁ r₂ hreg => ?_
      rw [hreg.roster]
      cases r₂.roster.primary with
      | none => exact twin_pure rfl
      | some q =>
        exact twin_bind (twin_dispatch (hr q u (some d)) n .viaClass) fun _ _ _ =>
          twin_classPhase n u told ds

theorem twin_observerPhase (n : Nat) (u : Text) : ∀ os,
    Twin p E Eq (observerPhase react₁ n u os) (observerPhase react₂ n u os)
  | [] => twin_pure rfl
  | o :: os => by
    simp only [observerPhase]
    exact twin_bind (twin_dispatch (hr o u none) n .observer) fun _ _ _ =>
      twin_observerPhase n u os

theorem twin_phases (n : Nat) (u : Text) :
    Twin p E Eq (phases react₁ n u) (phases react₂ n u) := by
  -- the observers, read from twin registries, are the same
  have observers : Twin p E Eq (registry >>= fun k => observerPhase react₁ n u k.roster.observers)
      (registry >>= fun k => observerPhase react₂ n u k.roster.observers) :=
    twin_bind twin_registry fun k₁ k₂ hk => by
      rw [hk.roster]
      exact twin_observerPhase hr n u _
  simp only [phases]
  refine twin_bind twin_registry fun r₁ r₂ hreg => ?_
  rw [hreg.roster, hreg.graph, hreg.scheme]
  by_cases hp : r₂.roster.primary.isSome = true
  · simp only [hp, ite_true]
    refine twin_bind (twin_directPhase hr n u _ []) fun told₁ told₂ htold => ?_
    subst htold
    by_cases hc : (!r₂.scheme.isClassLevel u) = true
    · simp only [hc, ite_true]
      refine twin_lift_bind fun _ _ => ?_
      refine twin_bind twin_registry fun k₁ k₂ hk => ?_
      rw [hk.graph]
      exact twin_bind (twin_classPhase hr n u _ _) fun _ _ _ => observers
    · simp only [hc, Bool.false_eq_true, ite_false]
      exact observers
  · simp only [hp, Bool.false_eq_true, ite_false]
    exact observers

-- The frame of a notification the guard let in.
theorem twin_frame (u : Text) : Twin p E Eq
    (do
      modifyRegistry fun r => { r with count := r.count + 1 }
      let number := (← registry).count
      openFrame
      modifyRegistry fun r => { r with depth := r.depth + 1 }
      andFinally (phases react₁ number u) do
        modifyRegistry fun r => { r with depth := r.depth - 1 }
        closeFrame)
    (do
      modifyRegistry fun r => { r with count := r.count + 1 }
      let number := (← registry).count
      openFrame
      modifyRegistry fun r => { r with depth := r.depth + 1 }
      andFinally (phases react₂ number u) do
        modifyRegistry fun r => { r with depth := r.depth - 1 }
        closeFrame) := by
  refine twin_bind (twin_keep (fun _ => rfl) (fun _ => rfl) (fun _ => rfl)) fun _ _ _ => ?_
  refine twin_bind twin_registry fun k₁ k₂ hk => ?_
  rw [hk.count]
  refine twin_bind twin_openFrame fun _ _ _ => ?_
  refine twin_bind (twin_keep (fun _ => rfl) (fun _ => rfl) (fun _ => rfl)) fun _ _ _ => ?_
  exact twin_andFinally (twin_phases hr _ u)
    (twin_bind (twin_keep (fun _ => rfl) (fun _ => rfl) (fun _ => rfl)) fun _ _ _ =>
      twin_closeFrame)

-- A notification of twin reactions is twin: the guard reads the scheme, the depth and the limit,
-- which twins share, and so does everything after it but tracing and recording.
theorem twin_notify (v : Json) : Twin p E Eq (notify react₁ v) (notify react₂ v) := by
  simp only [notify]
  refine twin_bind twin_registry fun r₁ r₂ hreg => ?_
  rw [hreg.scheme, hreg.maxDepth, hreg.depth]
  refine twin_lift_bind fun u _ => ?_
  cases r₂.maxDepth with
  | none => exact twin_frame hr u
  | some m =>
    refine twin_lift_bind fun b _ => ?_
    cases b
    · simp only [Bool.false_eq_true, ite_false]
      exact twin_frame hr u
    · simp only [ite_true]
      exact twin_bind (R := Eq) (twin_throw _) fun _ _ _ => twin_frame hr u

end Notify

end Run

end Invalidation
