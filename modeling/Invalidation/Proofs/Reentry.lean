import Invalidation.Proofs.Scripted
import Invalidation.Proofs.Order

namespace Invalidation

namespace Run

-- With no primary consumer, the phases only tell the observers.
theorem exec_phases_unowned {σ : Type} (react : Reaction σ) (n : Nat) (u : Text) (h : Host σ)
    (hp : h.registry.roster.primary = none) :
    (phases react n u).exec h = (observerPhase react n u h.registry.roster.observers).exec h := by
  simp [phases, exec_bind, hp]

end Run

namespace Script

open Run

def echoStep : Json := .obj [("op", .str "notify"), ("id", .str "$upstream")]

def echoListener : Listener := ⟨0, .str "o", false⟩

def echoActor : Actor := ⟨echoListener, .str "o", false, [⟨none, none, none, .arr [echoStep]⟩]⟩

-- One observer that, whenever it is told of a change, notifies the same identifier again.
def echo : Cast := [(.str "o", echoActor)]

def echoRoster : Roster := ⟨none, [echoListener]⟩

theorem echo_isText : ∀ e ∈ echo, e.2.listener.kind.IsText := by
  intro e he
  rw [List.mem_singleton.1 he]
  exact ⟨_, rfl⟩

-- Told of `u`, the echo notes the call and notifies `u` again, one allowance of each kind down.
theorem exec_echo_react (n : Nat) (u : Text) (h : Host Stage) :
    ∃ s : Stage, (react echo (n + 2) echoListener u none).exec h =
      ((notify (react echo n) (.str u) >>= fun _ => pure ()) : Play Unit).exec { h with own := s } := by
  have hact : echo.actor? echoListener = some echoActor := rfl
  have hfires : ∀ k, Rule.fires ⟨none, none, none, .arr [echoStep]⟩ u none k = .ok true :=
    fun _ => rfl
  have hitems : Json.loopItems (.arr [echoStep]) = .ok [echoStep] := rfl
  have haction : Action.ofJson u none echoStep =
      .ok ⟨.obj [("op", .str "notify"), ("id", .str u)], false⟩ := rfl
  have hcommand : Command.ofJson (.obj [("op", .str "notify"), ("id", .str u)]) =
      .ok (.notify (.str u)) := rfl
  simp only [react, hact]
  simp only [echoActor, runRules, runActions, Script.exec, perform, hfires, hitems, haction, hcommand,
    firedCount, countFiring, note, exec_bind, exec_registry, exec_get, exec_modify, exec_lift, exec_pure,
    exec_tryCatch, Bool.false_eq_true, ite_false, ite_true]
  refine ⟨⟨((echoListener.id, 0), (List.lookup (echoListener.id, 0) h.own.fired).getD 0 + 1) ::
      List.filter (fun x => x.1 != (echoListener.id, 0)) h.own.fired,
    h.own.notes.push (.obj [("listener", .str "o"), ("upstream", .str u),
      ("downstream", Json.ofOption none), ("depth", .int h.registry.depth)])⟩, ?_⟩
  generalize (notify (react echo n) (Json.str u)).exec _ = p
  rcases p with ⟨_ | _, h'⟩ <;> rfl

-- A chain of notifications, each made by the echo while it is told of the one before: from depth
-- `m - k` under the limit `m`, exactly `k` of them are let in, and the next is refused with the
-- fault that names the identifier and the limit, which reaches the first unchanged.
-- One level of the echo: a notification let in tells the one observer, which notifies the same
-- identifier again one level deeper and one allowance lower; a failure of that notification is the
-- failure of the outer one, which closes its frame after it.
theorem echo_step (n : Nat) (h : Host Stage) {u : Text} (hs : h.registry.Sound)
    (hro : h.registry.roster = echoRoster) (ha : h.registry.admitsAt h.registry.depth)
    (hv : h.registry.scheme.isValid (.str u) = true) :
    ∃ h₂ : Host Stage, h₂.registry.Sound ∧ h₂.registry.roster = echoRoster ∧
      h₂.registry.scheme = h.registry.scheme ∧ h₂.registry.maxDepth = h.registry.maxDepth ∧
      h₂.registry.depth = h.registry.depth + 1 ∧ h₂.registry.count = h.registry.count + 1 ∧
      ∀ f, ((notify (react echo n) (.str u)).exec h₂).1 = .error f →
        ((notify (react echo (n + 2)) (.str u)).exec h).1 = .error f ∧
        ((notify (react echo (n + 2)) (.str u)).exec h).2.registry.count =
          ((notify (react echo n) (.str u)).exec h₂).2.registry.count := by
  obtain ⟨ts, -, he⟩ := exec_notify_admitted (react echo (n + 2)) hs (Scheme.requireValid_str hv) ha
  generalize hh₁ : ({ h with registry := { h.registry with
      count := h.registry.count + 1
      depth := h.registry.depth + 1
      watch := { h.registry.watch with totals := ts, started := some h.clock } } } : Host Stage) = h₁
    at he
  have hs₁ : h₁.registry.Sound := hh₁ ▸ hs.enter ha _ ts h.clock
  have hro₁ : h₁.registry.roster = echoRoster := by rw [← hh₁]; exact hro
  have prepared : Call.Prepared h₁.registry
      (tell (h.registry.count + 1) .observer echoListener u none h₁).registry :=
    prepared_tell (component_isHashable fun _ => rfl)
  have kept₂ := prepared.kept hs₁ (by rw [← hh₁]; simp)
  obtain ⟨s, hreact⟩ := exec_echo_react n u (tell (h.registry.count + 1) .observer echoListener u none h₁)
  generalize hh₂ : ({ tell (h.registry.count + 1) .observer echoListener u none h₁ with own := s } :
    Host Stage) = h₂ at hreact
  refine ⟨h₂, hh₂ ▸ kept₂.sound, by rw [← hh₂, prepared.roster, hro₁],
    by rw [← hh₂, kept₂.scheme, ← hh₁], by rw [← hh₂, kept₂.maxDepth, ← hh₁],
    by rw [← hh₂, kept₂.depth, ← hh₁], by rw [← hh₂, prepared.count, ← hh₁], fun f herr => ?_⟩
  -- the observer phase is the one call, whose failure ends it
  have phases : (phases (react echo (n + 2)) (h.registry.count + 1) u).exec h₁ =
      (notify (react echo n) (.str u)).exec h₂ := by
    rw [exec_phases_unowned _ _ _ _ (by rw [hro₁]; rfl), hro₁]
    simp only [echoRoster, observerPhase, exec_bind, exec_dispatch_tell _ _ _ _ _ _ hs₁.traced,
      hreact]
    rcases hp : (notify (react echo n) (.str u)).exec h₂ with ⟨_ | _, h₃⟩
    · rfl
    · rw [hp] at herr
      cases herr
  -- the nested notification leaves the frame it found, which then closes
  have kept₃ := keeps_notify (keeps_play echo_isText n).1 (.str u) h₂ (hh₂ ▸ kept₂.sound)
  obtain ⟨w, hclose, -⟩ := exec_close kept₃.sound (d := h.registry.depth)
    (by rw [kept₃.depth, ← hh₂, kept₂.depth, ← hh₁])
  rw [he, exec_andFinally, phases, hclose]
  exact ⟨herr, rfl⟩

-- By induction on the levels left: `k` levels below the limit, with an allowance for `k` echoes,
-- the chain of notifications is refused at the limit, having counted `k` notifications.
theorem echo_chain {m : Int} : ∀ (k n : Nat) (h : Host Stage) {u : Text}, h.registry.Sound →
    h.registry.roster = echoRoster → h.registry.maxDepth = some (.int m) →
    (h.registry.depth : Int) + k = m → 2 * k ≤ n → h.registry.scheme.isValid (.str u) = true →
    ((notify (react echo n) (.str u)).exec h).1 = .error (.depthExceeded u (.int m)) ∧
      ((notify (react echo n) (.str u)).exec h).2.registry.count = h.registry.count + k
  | 0, n, h, u, hs, hro, hm, hd, hn, hv => by
    -- at the limit the notification is refused, and nothing changes
    have hr : Json.relate .ge (.int h.registry.depth) (.int m) = .ok true := by
      rw [Json.relate_ge_int]
      simp only [Except.ok.injEq, decide_eq_true_eq]
      omega
    rw [exec_notify_exceeded _ (Scheme.requireValid_str hv) hm hr]
    exact ⟨rfl, rfl⟩
  | k + 1, n, h, u, hs, hro, hm, hd, hn, hv => by
    obtain ⟨n, rfl⟩ : ∃ n', n = n' + 2 := ⟨n - 2, by omega⟩
    have ha : h.registry.admitsAt h.registry.depth := (Registry.admitsAt_int hm _).2 (by omega)
    obtain ⟨h₂, hs₂, hro₂, hsc₂, hm₂, hd₂, hc₂, outer⟩ := echo_step n h hs hro ha hv
    obtain ⟨herr, hcount⟩ := echo_chain k n h₂ hs₂ hro₂ (hm₂.trans hm) (by rw [hd₂]; push_cast; omega)
      (by omega) (hsc₂ ▸ hv)
    obtain ⟨herr', hcount'⟩ := outer _ herr
    refine ⟨herr', ?_⟩
    rw [hcount', hcount, hc₂]
    omega

-- A primary consumer that, told about `MID:b`, registers an edge and notifies `MID:c`, and an
-- observer that moves the clock on by a second.
def relayCast : Cast :=
  [(.str "p", ⟨⟨0, .str "p", true⟩, .str "p", false, [⟨none, some (.str "MID:b"), none,
      .arr [.obj [("op", .str "register"), ("upstream", .str "MID:c"), ("downstream", .str "MID:d")],
        .obj [("op", .str "notify"), ("id", .str "MID:c")]]⟩]⟩),
   (.str "o", ⟨⟨1, .str "o", false⟩, .str "o", false,
      [⟨none, none, none, .arr [.obj [("op", .str "advance"), ("seconds", .int 1)]]⟩]⟩)]

-- `MID:a` upstream of `MID:b` and `MID:c`, the two listeners of `relayCast` registered, a journal
-- of ten records, every call traced, and a limit of two.
def relayRegistry : Registry :=
  ⟨.standard, Graph.ofChanges .standard [.register (.str "MID:a") (.str "MID:b"),
      .register (.str "MID:a") (.str "MID:c")],
    ⟨some ⟨0, .str "p", true⟩, [⟨1, .str "o", false⟩]⟩, .new, some (Journal.new 10 (.int 10)),
    some (.int 2), .int 2, 0, 0⟩

theorem relayCast_isText : ∀ e ∈ relayCast, e.2.listener.kind.IsText := by
  intro e he
  simp only [relayCast, List.mem_cons, List.mem_nil_iff, or_false] at he
  rcases he with rfl | rfl <;> exact ⟨_, rfl⟩

theorem relayCast_acts {P : Command → Prop} (hreg : P (.register (.str "MID:c") (.str "MID:d")))
    (hnot : P (.notify (.str "MID:c"))) (hadv : P (.advance (.int 1))) : relayCast.Acts P := by
  intro e he r hr vs hvs v hv u d a ha c hc
  simp only [relayCast, List.mem_cons, List.mem_nil_iff, or_false] at he
  rcases he with rfl | rfl <;> simp only [List.mem_singleton] at hr <;> subst hr <;>
    cases hvs <;> simp only [List.mem_cons, List.mem_nil_iff, or_false] at hv <;>
    rcases hv with rfl | rfl <;> cases ha <;> cases hc <;> assumption

theorem relayRegistry_sound : relayRegistry.Sound where
  graph := Graph.wellformed_ofChanges _ _
  traced := rfl
  kinds o ho := by
    simp only [relayRegistry, List.mem_singleton] at ho
    rw [ho]
    rfl
  limit m hm := by
    cases hm
    rfl
  chargeable := rfl
  running := by simp [relayRegistry, Stopwatch.new]
  idle _ := rfl
  admitted _ h := by cases h

-- The same registry two notifications deep, at its limit, with `MID:b` charged last.
def relayDeep : Registry :=
  { relayRegistry with depth := 2, count := 2, watch := ⟨[], some 0.0, .str "MID:b"⟩ }

theorem relayDeep_sound : relayDeep.Sound where
  graph := Graph.wellformed_ofChanges _ _
  traced := rfl
  kinds := relayRegistry_sound.kinds
  limit := relayRegistry_sound.limit
  chargeable := rfl
  running := by simp [relayDeep]
  idle h := by cases h
  admitted d h := by
    cases h
    exact (Registry.admitsAt_int rfl 1).2 (by decide)

-- With scripted listeners, from any sound registry, the calls a notification let in makes itself
-- are those of its three phases in order, the last perhaps failed: the primary consumer of each
-- moment about what is downstream of the identifier as it was at entry, then, for an instance
-- whose class is valid, about what is downstream of the class after that, less what was told and
-- the identifier itself, and the observers of the moment last. When a primary consumer is set and
-- the class of an instance is not valid, the notification fails there, with no class or observer
-- call. It tells about each downstream identifier at most once, never about the identifier itself.
theorem notify_tells_in_phase_order {cast : Cast} (hcast : ∀ e ∈ cast, e.2.listener.kind.IsText)
    (n : Nat) (h : Host (Stage × List Call)) (hs : h.registry.Sound) {v : Json} {u : Text}
    (hv : h.registry.scheme.requireValid v "upstream" = .ok u)
    (ha : h.registry.admitsAt h.registry.depth) :
    let p := (notify (tap (react cast n)) v).exec h
    ∃ c₁ c₂ c₃, p.2.own.2 = h.own.2 ++ (c₁ ++ c₂ ++ c₃) ∧ Call.Ends (c₁ ++ c₂ ++ c₃) p.1 ∧
      Call.Phases u h.registry c₁ c₂ c₃ p.1 ∧
      (Call.told (c₁ ++ c₂ ++ c₃)).Nodup ∧ u ∉ Call.told (c₁ ++ c₂ ++ c₃) :=
  notify_tells_in_phase_order_of_keeps (keeps_play hcast n).1 h hs hv ha

theorem notify_tells_in_phase_order_fresh :
    let h : Host (Stage × List Call) := ⟨relayRegistry, 0.0, #[], (⟨[], #[]⟩, [])⟩
    let u : Text := "MID:a"
    (∀ e ∈ relayCast, e.2.listener.kind.IsText) ∧ h.registry.Sound ∧
    h.registry.scheme.requireValid (.str u) "upstream" = .ok u ∧
    h.registry.admitsAt h.registry.depth ∧
    let p := (notify (tap (react relayCast 6)) (.str u)).exec h
    ∃ c₁ c₂ c₃, p.2.own.2 = h.own.2 ++ (c₁ ++ c₂ ++ c₃) ∧ Call.Ends (c₁ ++ c₂ ++ c₃) p.1 ∧
      Call.Phases u h.registry c₁ c₂ c₃ p.1 ∧
      (Call.told (c₁ ++ c₂ ++ c₃)).Nodup ∧ u ∉ Call.told (c₁ ++ c₂ ++ c₃) := by
  intro h u
  have hv : h.registry.scheme.requireValid (.str u) "upstream" = .ok u := rfl
  have ha : h.registry.admitsAt h.registry.depth := (Registry.admitsAt_int rfl 0).2 (by decide)
  exact ⟨relayCast_isText, relayRegistry_sound, hv, ha,
    notify_tells_in_phase_order relayCast_isText 6 h relayRegistry_sound hv ha⟩

-- Under the slash scheme, with a primary consumer and an observer registered, notifying "/x"
-- fails on the blank class of "/x" once the primary phase is over: the observer is not told.
theorem notify_fails_on_blank_class :
    let cast : Cast := [(.str "p", ⟨⟨0, .str "p", true⟩, .str "p", false, []⟩),
      (.str "o", ⟨⟨1, .str "o", false⟩, .str "o", false, []⟩)]
    let r : Registry := ⟨.slash, .empty, ⟨some ⟨0, .str "p", true⟩, [⟨1, .str "o", false⟩]⟩, .new,
      none, some (.int 256), .int 0, 0, 0⟩
    let p := (notify (tap (react cast 6)) (.str "/x")).exec ⟨r, 0.0, #[], (⟨[], #[]⟩, [])⟩
    p.1 = .error (.invalidIdentifier (.str "") (.invalid "upstream")) ∧ p.2.own.2 = [] :=
  ⟨rfl, rfl⟩

-- With scripted listeners, from any sound registry, a notification leaves what a listener may
-- leave, every call it makes finds a sound registry one level deeper, a failed call is its last
-- and gives it its fault, and the count grows by one and by what its calls added; refused, it
-- changes nothing. A whole script, from a registry at rest, leaves it at rest.
theorem notify_balances_frames {cast : Cast} (hcast : ∀ e ∈ cast, e.2.listener.kind.IsText)
    (n : Nat) (h : Host (Stage × List Call)) (hs : h.registry.Sound) (v : Json) :
    (let p := (notify (tap (react cast n)) v).exec h
    Registry.Kept h.registry p.2.registry ∧
    (h.registry.depth = 0 →
      p.2.registry.watch.started = none ∧ p.2.registry.watch.responsible = .str unattributed) ∧
    ((∃ u, h.registry.scheme.requireValid v "upstream" = .ok u ∧
        h.registry.admitsAt h.registry.depth) ∧
      (∃ calls, p.2.own.2 = h.own.2 ++ calls ∧
        (∀ c ∈ calls, c.before.Sound ∧ c.before.depth = h.registry.depth + 1) ∧
        Call.Ends calls p.1 ∧
        p.2.registry.count =
          h.registry.count + 1 + (calls.map fun c => c.after.count - c.before.count).sum) ∨
     (¬∃ u, h.registry.scheme.requireValid v "upstream" = .ok u ∧
        h.registry.admitsAt h.registry.depth) ∧
      p.2 = h ∧ ∃ f, p.1 = .error f)) ∧
    ∀ (steps : List Json) (h₀ : Host Stage), h₀.registry.Sound → h₀.registry.depth = 0 →
      let h' := ((runSteps cast steps).exec h₀).2
      Registry.Kept h₀.registry h'.registry ∧ h'.registry.watch.started = none ∧
        h'.registry.watch.responsible = .str unattributed :=
  ⟨notify_balances_frames_of_keeps (keeps_play hcast n).1 h hs v,
    fun steps h₀ hs₀ h0 => runSteps_rests hcast steps h₀ hs₀ h0⟩

theorem notify_balances_frames_fresh :
    let h : Host (Stage × List Call) := ⟨relayRegistry, 0.0, #[], (⟨[], #[]⟩, [])⟩
    let v : Json := .str "MID:a"
    (∀ e ∈ relayCast, e.2.listener.kind.IsText) ∧ h.registry.Sound ∧
    (let p := (notify (tap (react relayCast 6)) v).exec h
    Registry.Kept h.registry p.2.registry ∧
    (h.registry.depth = 0 →
      p.2.registry.watch.started = none ∧ p.2.registry.watch.responsible = .str unattributed) ∧
    ((∃ u, h.registry.scheme.requireValid v "upstream" = .ok u ∧
        h.registry.admitsAt h.registry.depth) ∧
      (∃ calls, p.2.own.2 = h.own.2 ++ calls ∧
        (∀ c ∈ calls, c.before.Sound ∧ c.before.depth = h.registry.depth + 1) ∧
        Call.Ends calls p.1 ∧
        p.2.registry.count =
          h.registry.count + 1 + (calls.map fun c => c.after.count - c.before.count).sum) ∨
     (¬∃ u, h.registry.scheme.requireValid v "upstream" = .ok u ∧
        h.registry.admitsAt h.registry.depth) ∧
      p.2 = h ∧ ∃ f, p.1 = .error f)) ∧
    ∀ (steps : List Json) (h₀ : Host Stage), h₀.registry.Sound → h₀.registry.depth = 0 →
      let h' := ((runSteps relayCast steps).exec h₀).2
      Registry.Kept h₀.registry h'.registry ∧ h'.registry.watch.started = none ∧
        h'.registry.watch.responsible = .str unattributed := by
  intro h v
  exact ⟨relayCast_isText, relayRegistry_sound,
    notify_balances_frames relayCast_isText 6 h relayRegistry_sound v⟩

-- With scripted listeners and an integer limit `m`: no sound registry is deeper than `m`, and a
-- notification keeps it so, every call it makes being one level deeper; an invalid identifier is
-- refused first, and a valid one is refused for depth exactly at `m`, with the fault that names
-- it and `m`. A whole script keeps the registry sound under the same limit, at depth zero. And in
-- a chain of notifications each made while the one before is telling its listener, as the echo
-- makes, exactly `k` are let in from depth `m - k`: from the top, the `m + 1`-th is refused.
theorem notify_depth_guard {cast : Cast} (hcast : ∀ e ∈ cast, e.2.listener.kind.IsText) (n : Nat)
    (h : Host (Stage × List Call)) (hs : h.registry.Sound) {m : Int}
    (hm : h.registry.maxDepth = some (.int m)) (v : Json) :
    (let p := (notify (tap (react cast n)) v).exec h
    (h.registry.depth : Int) ≤ m ∧ (p.2.registry.depth : Int) ≤ m ∧
    (∃ calls, p.2.own.2 = h.own.2 ++ calls ∧
      ∀ c ∈ calls, c.before.depth = h.registry.depth + 1 ∧ (c.before.depth : Int) ≤ m) ∧
    (h.registry.scheme.isValid v = false →
      p = (.error (.invalidIdentifier v (.invalid "upstream")), h)) ∧
    ∀ u, h.registry.scheme.requireValid v "upstream" = .ok u →
      (p = (.error (.depthExceeded u (.int m)), h) ↔ (h.registry.depth : Int) = m)) ∧
    (∀ (steps : List Json) (h₀ : Host Stage), h₀.registry.Sound → h₀.registry.depth = 0 →
      let h' := ((runSteps cast steps).exec h₀).2
      h'.registry.Sound ∧ h'.registry.maxDepth = h₀.registry.maxDepth ∧ h'.registry.depth = 0) ∧
    ∀ (k n' : Nat) (h₀ : Host Stage) (u : Text), h₀.registry.Sound →
      h₀.registry.roster = echoRoster → h₀.registry.maxDepth = some (.int m) →
      (h₀.registry.depth : Int) + k = m → 2 * k ≤ n' → h₀.registry.scheme.isValid (.str u) = true →
      ((notify (react echo n') (.str u)).exec h₀).1 = .error (.depthExceeded u (.int m)) ∧
        ((notify (react echo n') (.str u)).exec h₀).2.registry.count = h₀.registry.count + k := by
  refine ⟨notify_depth_guard_of_keeps (keeps_play hcast n).1 h hs hm v, fun steps h₀ hs₀ h0 => ?_,
    fun k n' h₀ u => echo_chain k n' h₀⟩
  have kept := (runSteps_rests hcast steps h₀ hs₀ h0).1
  exact ⟨kept.sound, kept.maxDepth, kept.depth.trans h0⟩

-- Two notifications deep, at the limit of two, with the scripted listeners of `relayCast`.
theorem notify_depth_guard_fresh :
    let h : Host (Stage × List Call) := ⟨relayDeep, 0.0, #[], (⟨[], #[]⟩, [])⟩
    let v : Json := .str "MID:a"
    (∀ e ∈ relayCast, e.2.listener.kind.IsText) ∧ h.registry.Sound ∧
    h.registry.maxDepth = some (.int 2) ∧ h.registry.depth = 2 ∧
    (let p := (notify (tap (react relayCast 6)) v).exec h
    (h.registry.depth : Int) ≤ 2 ∧ (p.2.registry.depth : Int) ≤ 2 ∧
    (∃ calls, p.2.own.2 = h.own.2 ++ calls ∧
      ∀ c ∈ calls, c.before.depth = h.registry.depth + 1 ∧ (c.before.depth : Int) ≤ 2) ∧
    (h.registry.scheme.isValid v = false →
      p = (.error (.invalidIdentifier v (.invalid "upstream")), h)) ∧
    ∀ u, h.registry.scheme.requireValid v "upstream" = .ok u →
      (p = (.error (.depthExceeded u (.int 2)), h) ↔ (h.registry.depth : Int) = 2)) ∧
    (∀ (steps : List Json) (h₀ : Host Stage), h₀.registry.Sound → h₀.registry.depth = 0 →
      let h' := ((runSteps relayCast steps).exec h₀).2
      h'.registry.Sound ∧ h'.registry.maxDepth = h₀.registry.maxDepth ∧ h'.registry.depth = 0) ∧
    ∀ (k n' : Nat) (h₀ : Host Stage) (u : Text), h₀.registry.Sound →
      h₀.registry.roster = echoRoster → h₀.registry.maxDepth = some (.int 2) →
      (h₀.registry.depth : Int) + k = 2 → 2 * k ≤ n' → h₀.registry.scheme.isValid (.str u) = true →
      ((notify (react echo n') (.str u)).exec h₀).1 = .error (.depthExceeded u (.int 2)) ∧
        ((notify (react echo n') (.str u)).exec h₀).2.registry.count = h₀.registry.count + k := by
  intro h v
  exact ⟨relayCast_isText, relayDeep_sound, rfl, rfl,
    notify_depth_guard relayCast_isText 6 h relayDeep_sound rfl v⟩

-- With scripted listeners whose actions never reset the timings, from any sound registry: a
-- notification refused changes nothing; let in, it reads the clock as its frame opens, then makes
-- its visits one after the other, each making the component of its call responsible and running
-- the ticks of its own call, the readings of nested notifications among them. Nested, it leaves
-- the stopwatch running from its last reading. Outermost, it reads the clock once more as it
-- closes: each span between two readings is charged to the component responsible at its end and
-- nothing else is charged; in exact arithmetic the spans add up to the time from the first reading
-- to the last, and none is negative when the clock never goes back.
theorem notify_charges_time_between_readings {cast : Cast}
    (hcast : ∀ e ∈ cast, e.2.listener.kind.IsText) (hreset : cast.Acts (· ≠ .resetTimings))
    (n : Nat) (h : Host Stage) (hs : h.registry.Sound) (v : Json) :
    let react := react cast n
    let p := (notify react v).exec h
    ((¬∃ u, h.registry.scheme.requireValid v "upstream" = .ok u ∧
        h.registry.admitsAt h.registry.depth) → p.2 = h) ∧
    ∀ u, h.registry.scheme.requireValid v "upstream" = .ok u →
      h.registry.admitsAt h.registry.depth →
      ∃ (vs : List (Visit Stage)) (ticks : Visit Stage → List Stopwatch.Tick),
        Visit.Chain react (h.registry.count + 1) u
          { h with registry := { h.registry with
            count := h.registry.count + 1
            depth := h.registry.depth + 1
            watch := h.registry.watch.tick (.read h.clock) } } vs ∧
        (∀ w ∈ vs, w.finish.registry.watch = w.start.registry.watch.play (ticks w)) ∧
        let told := vs.flatMap fun w =>
          .tell (component h.registry.scheme w.listener w.downstream) :: ticks w
        (h.registry.depth ≠ 0 →
          p.2.registry.watch = h.registry.watch.play (.read h.clock :: told)) ∧
        (h.registry.depth = 0 →
          let sp := Stopwatch.spans (.str unattributed) h.clock (told ++ [.read p.2.clock])
          p.2.registry.watch = ⟨Stopwatch.creditAll h.registry.watch.totals sp, none,
            .str unattributed⟩ ∧
          ∀ val : Float → ℚ,
            (sp.map fun s => val s.stop - val s.start).sum = val p.2.clock - val h.clock ∧
            ((h.clock :: Stopwatch.reads told ++ [p.2.clock]).IsChain (fun a b => val a ≤ val b) →
              ∀ s ∈ sp, 0 ≤ val s.stop - val s.start)) :=
  notify_charges_time_of_clocked (fun l u d => (timed_play hcast hreset n l u d).1)
    (fun l u d => (timed_play hcast hreset n l u d).2) h hs v

theorem notify_charges_time_between_readings_fresh :
    let h : Host Stage := ⟨relayRegistry, 100.0, #[], ⟨[], #[]⟩⟩
    let v : Json := .str "MID:a"
    (∀ e ∈ relayCast, e.2.listener.kind.IsText) ∧ relayCast.Acts (· ≠ .resetTimings) ∧
    h.registry.Sound ∧
    let react := react relayCast 6
    let p := (notify react v).exec h
    ((¬∃ u, h.registry.scheme.requireValid v "upstream" = .ok u ∧
        h.registry.admitsAt h.registry.depth) → p.2 = h) ∧
    ∀ u, h.registry.scheme.requireValid v "upstream" = .ok u →
      h.registry.admitsAt h.registry.depth →
      ∃ (vs : List (Visit Stage)) (ticks : Visit Stage → List Stopwatch.Tick),
        Visit.Chain react (h.registry.count + 1) u
          { h with registry := { h.registry with
            count := h.registry.count + 1
            depth := h.registry.depth + 1
            watch := h.registry.watch.tick (.read h.clock) } } vs ∧
        (∀ w ∈ vs, w.finish.registry.watch = w.start.registry.watch.play (ticks w)) ∧
        let told := vs.flatMap fun w =>
          .tell (component h.registry.scheme w.listener w.downstream) :: ticks w
        (h.registry.depth ≠ 0 →
          p.2.registry.watch = h.registry.watch.play (.read h.clock :: told)) ∧
        (h.registry.depth = 0 →
          let sp := Stopwatch.spans (.str unattributed) h.clock (told ++ [.read p.2.clock])
          p.2.registry.watch = ⟨Stopwatch.creditAll h.registry.watch.totals sp, none,
            .str unattributed⟩ ∧
          ∀ val : Float → ℚ,
            (sp.map fun s => val s.stop - val s.start).sum = val p.2.clock - val h.clock ∧
            ((h.clock :: Stopwatch.reads told ++ [p.2.clock]).IsChain (fun a b => val a ≤ val b) →
              ∀ s ∈ sp, 0 ≤ val s.stop - val s.start)) := by
  intro h v
  have hacts : relayCast.Acts (· ≠ .resetTimings) :=
    relayCast_acts (by simp) (by simp) (by simp)
  exact ⟨relayCast_isText, hacts, relayRegistry_sound,
    notify_charges_time_between_readings relayCast_isText hacts 6 h relayRegistry_sound v⟩

-- With scripted listeners whose actions never clear the journal, from any sound registry: a
-- notification refused writes nothing; let in, it makes its visits one after the other, the last
-- perhaps failed, and writes down, for each in turn, the visit's own call, with the frame's number
-- and depth, the identifiers, the phase and the component, traced as the trace level then stands,
-- and then what the visit's listener wrote, the calls of nested notifications among it. A journal
-- within its capacity ends with the last of its records and of those written, up to its capacity,
-- in order. Every command that is not a notification, a reset of the timings or a clearing of the
-- journal writes nothing down, and over a run of steps that never clear it the journal only has
-- records appended.
theorem notify_records_every_call {cast : Cast} (hcast : ∀ e ∈ cast, e.2.listener.kind.IsText)
    (hclear : cast.Acts (· ≠ .logClear)) (n : Nat) (h : Host Stage) (hs : h.registry.Sound)
    (v : Json) :
    (let react := react cast n
    let p := (notify react v).exec h
    ((¬∃ u, h.registry.scheme.requireValid v "upstream" = .ok u ∧
        h.registry.admitsAt h.registry.depth) → p.2 = h) ∧
    ∀ u, h.registry.scheme.requireValid v "upstream" = .ok u →
      h.registry.admitsAt h.registry.depth →
      let h₁ : Host Stage := { h with registry := { h.registry with
        count := h.registry.count + 1
        depth := h.registry.depth + 1
        watch := h.registry.watch.tick (.read h.clock) } }
      ∃ (vs : List (Visit Stage)) (ds : Visit Stage → List Dispatched),
        Visit.Chain react (h.registry.count + 1) u h₁ vs ∧
        (∀ w ∈ vs, Host.Wrote w.start w.finish (ds w)) ∧
        p.2.registry.journal = (Visit.last h₁ vs).registry.journal ∧
        p.2.logs = (Visit.last h₁ vs).logs ∧
        let calls := vs.flatMap fun w =>
          ⟨⟨h.registry.count + 1, h.registry.depth + 1, u, w.downstream, w.phase,
            component h.registry.scheme w.listener w.downstream⟩, traces w.start.registry w.phase⟩ ::
            ds w
        Host.Wrote h p.2 calls ∧
        ((∀ j ∈ h.registry.journal, j.entries.length ≤ j.capacity) →
          p.2.registry.journal = h.registry.journal.map fun j =>
            { j with entries := (j.entries ++ calls.map (·.entry)).rtake j.capacity })) ∧
    (∀ c : Command, c.quiet = true ∨ c = .resetTimings →
      Host.Wrote h ((perform cast (react cast n) c).exec h).2 []) ∧
    ∀ steps, (∀ s ∈ steps, Performs (· ≠ .logClear) s) → ∀ h₀ : Host Stage, h₀.registry.Sound →
      ∃ es, ((runSteps cast steps).exec h₀).2.registry.journal =
        h₀.registry.journal.map (·.appendAll es) := by
  refine ⟨notify_records_every_call_of_recorded (fun l u d => (writes_play hcast hclear n l u d).1)
    (fun l u d => (writes_play hcast hclear n l u d).2) h hs v,
    fun c hc => perform_writes_nothing hcast _ c hc h hs,
    fun steps hsteps h₀ hs₀ => journal_runSteps hcast hclear steps hsteps h₀ hs₀⟩

theorem notify_records_every_call_fresh :
    let h : Host Stage := ⟨relayRegistry, 100.0, #[], ⟨[], #[]⟩⟩
    let v : Json := .str "MID:a"
    (∀ e ∈ relayCast, e.2.listener.kind.IsText) ∧ relayCast.Acts (· ≠ .logClear) ∧
    h.registry.Sound ∧
    (let react := react relayCast 6
    let p := (notify react v).exec h
    ((¬∃ u, h.registry.scheme.requireValid v "upstream" = .ok u ∧
        h.registry.admitsAt h.registry.depth) → p.2 = h) ∧
    ∀ u, h.registry.scheme.requireValid v "upstream" = .ok u →
      h.registry.admitsAt h.registry.depth →
      let h₁ : Host Stage := { h with registry := { h.registry with
        count := h.registry.count + 1
        depth := h.registry.depth + 1
        watch := h.registry.watch.tick (.read h.clock) } }
      ∃ (vs : List (Visit Stage)) (ds : Visit Stage → List Dispatched),
        Visit.Chain react (h.registry.count + 1) u h₁ vs ∧
        (∀ w ∈ vs, Host.Wrote w.start w.finish (ds w)) ∧
        p.2.registry.journal = (Visit.last h₁ vs).registry.journal ∧
        p.2.logs = (Visit.last h₁ vs).logs ∧
        let calls := vs.flatMap fun w =>
          ⟨⟨h.registry.count + 1, h.registry.depth + 1, u, w.downstream, w.phase,
            component h.registry.scheme w.listener w.downstream⟩, traces w.start.registry w.phase⟩ ::
            ds w
        Host.Wrote h p.2 calls ∧
        ((∀ j ∈ h.registry.journal, j.entries.length ≤ j.capacity) →
          p.2.registry.journal = h.registry.journal.map fun j =>
            { j with entries := (j.entries ++ calls.map (·.entry)).rtake j.capacity })) ∧
    (∀ c : Command, c.quiet = true ∨ c = .resetTimings →
      Host.Wrote h ((perform relayCast (react relayCast 6) c).exec h).2 []) ∧
    ∀ steps, (∀ s ∈ steps, Performs (· ≠ .logClear) s) → ∀ h₀ : Host Stage, h₀.registry.Sound →
      ∃ es, ((runSteps relayCast steps).exec h₀).2.registry.journal =
        h₀.registry.journal.map (·.appendAll es) := by
  intro h v
  have hacts : relayCast.Acts (· ≠ .logClear) := relayCast_acts (by simp) (by simp) (by simp)
  exact ⟨relayCast_isText, hacts, relayRegistry_sound,
    notify_records_every_call relayCast_isText hacts 6 h relayRegistry_sound v⟩

end Script

end Invalidation
