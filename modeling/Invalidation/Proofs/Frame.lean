import Invalidation.Proofs.Calls

namespace Invalidation

namespace Registry

variable {r₀ r : Registry} {d : Nat} {w : Stopwatch}

-- Entering a frame the guard lets in, one level deeper with the stopwatch started.
theorem Sound.enter (hs : r.Sound) (ha : r.admitsAt r.depth) (c : Nat) (ts : List (Json × Float))
    (t : Float) :
    Sound { r with
      count := c
      depth := r.depth + 1
      watch := { r.watch with totals := ts, started := some t } } where
  graph := hs.graph
  traced := hs.traced
  kinds := hs.kinds
  limit := hs.limit
  chargeable := hs.chargeable
  running := ⟨fun h => (by cases h), fun h => (by cases h)⟩
  idle h := by cases h
  admitted d h := by
    cases h
    exact ha

-- Going back up to depth `d` after a notification entered there, with the stopwatch as closing
-- the frame left it.
theorem Sound.close (h₀ : r₀.Sound) (hd₀ : r₀.depth = d) (hm : r.maxDepth = r₀.maxDepth)
    (hs : r.Sound) (hd : r.depth = d + 1) (inner : d ≠ 0 → w = r.watch)
    (outer : d = 0 → w.started = none ∧ w.responsible = .str unattributed) :
    Sound { r with depth := d, watch := w } where
  graph := hs.graph
  traced := hs.traced
  kinds := hs.kinds
  limit := hs.limit
  chargeable := by
    by_cases h : d = 0
    · rw [(outer h).2]; rfl
    · rw [inner h]; exact hs.chargeable
  running := by
    show d = 0 ↔ w.started = none
    by_cases h : d = 0
    · exact ⟨fun _ => (outer h).1, fun _ => h⟩
    · rw [inner h]
      exact ⟨fun h' => absurd h' h, fun h' => absurd (hs.running.2 h') (by omega)⟩
  idle h := (outer h).2
  admitted d' h := by
    intro m hm'
    rw [hm] at hm'
    exact h₀.admitted d' (hd₀.trans h) m hm'

-- Back at depth zero, no frame is open and no component is responsible.
theorem Kept.idle (hk : Kept r₀ r) (h0 : r₀.depth = 0) :
    r.watch.started = none ∧ r.watch.responsible = .str unattributed :=
  ⟨hk.sound.running.1 (hk.depth.trans h0), hk.sound.idle (hk.depth.trans h0)⟩

end Registry

namespace Run

variable {σ : Type} {v : Json} {u : Text}

section Host

variable {h : Host σ}

theorem exec_notify_invalid (react : Reaction σ) {e : Fault} (hv : h.registry.scheme.requireValid v "upstream" = .error e) :
    (notify react v).exec h = (.error e, h) := by
  simp only [notify, exec_bind, exec_registry, hv, exec_lift]

-- A valid notification found at or beyond the limit is refused with the fault that names it and
-- the limit, and leaves the host as it was.
theorem exec_notify_exceeded (react : Reaction σ) {m : Json}
    (hv : h.registry.scheme.requireValid v "upstream" = .ok u) (hm : h.registry.maxDepth = some m)
    (hr : Json.relate .ge (.int h.registry.depth) m = .ok true) :
    (notify react v).exec h = (.error (.depthExceeded u m), h) := by
  simp [notify, exec_bind, hv, hm, hr]

-- A notification the guard does not let in fails and leaves the host as it was.
theorem exec_notify_unadmitted (react : Reaction σ)
    (hv : h.registry.scheme.requireValid v "upstream" = .ok u)
    (ha : ¬h.registry.admitsAt h.registry.depth) : ∃ f, (notify react v).exec h = (.error f, h) := by
  obtain ⟨m, hm, hr⟩ : ∃ m, h.registry.maxDepth = some m ∧
      Json.relate .ge (.int h.registry.depth) m ≠ .ok false := by
    simp only [Registry.admitsAt, Classical.not_forall] at ha
    obtain ⟨m, hm, hr⟩ := ha
    exact ⟨m, hm, hr⟩
  cases hg : Json.relate .ge (.int h.registry.depth) m with
  | error f => exact ⟨f, by simp [notify, exec_bind, hv, hm, hg]⟩
  | ok b =>
    cases b with
    | false => exact absurd hg hr
    | true => exact ⟨_, exec_notify_exceeded react hv hm hg⟩

-- A notification that is invalid or not let in is refused, and leaves the host as it was.
theorem exec_notify_refused (react : Reaction σ)
    (hn : ¬∃ u, h.registry.scheme.requireValid v "upstream" = .ok u ∧
      h.registry.admitsAt h.registry.depth) :
    ∃ f, (notify react v).exec h = (.error f, h) := by
  cases hv : h.registry.scheme.requireValid v "upstream" with
  | error e => exact ⟨e, exec_notify_invalid react hv⟩
  | ok u => exact exec_notify_unadmitted react hv fun ha => hn ⟨u, hv, ha⟩

-- A notification the guard lets in counts itself, opens a frame one level deeper, and runs its
-- phases before closing the frame.
theorem exec_notify_admitted (react : Reaction σ) (hs : h.registry.Sound)
    (hv : h.registry.scheme.requireValid v "upstream" = .ok u)
    (ha : h.registry.admitsAt h.registry.depth) :
    ∃ ts, h.registry.watch.enter h.clock =
        .ok { h.registry.watch with totals := ts, started := some h.clock } ∧
      (notify react v).exec h =
      (andFinally (phases react (h.registry.count + 1) u) (do
          modifyRegistry fun r => { r with depth := r.depth - 1 }
          closeFrame)).exec
        { h with
          registry := { h.registry with
            count := h.registry.count + 1
            depth := h.registry.depth + 1
            watch := { h.registry.watch with totals := ts, started := some h.clock } } } := by
  obtain ⟨ts, hts⟩ := Stopwatch.enter_ok hs.chargeable h.clock
  refine ⟨ts, hts, ?_⟩
  simp only [notify, exec_bind, exec_registry, hv, exec_lift]
  cases hm : h.registry.maxDepth with
  | none =>
    simp only [exec_bind, exec_modifyRegistry, exec_registry, openFrame, exec_get, exec_lift, hts]
    rw [hm]
  | some m =>
    -- the guard lets the notification in
    simp only [ha m hm, exec_bind, exec_lift, Bool.false_eq_true, ite_false, exec_modifyRegistry,
      exec_registry, openFrame, exec_get, hts]
    rw [hm]

-- Going back up from depth `d + 1` and closing the frame: an inner frame changes nothing on the
-- stopwatch, the outermost one stops it.
theorem exec_close (hs : h.registry.Sound) {d : Nat} (hd : h.registry.depth = d + 1) :
    ∃ w, (do
        modifyRegistry fun r => { r with depth := r.depth - 1 }
        closeFrame : Run σ Unit).exec h =
      (.ok (), { h with registry := { h.registry with depth := d, watch := w } }) ∧
      (d ≠ 0 → w = h.registry.watch) ∧
      (d = 0 → w.started = none ∧ w.responsible = .str unattributed) := by
  simp only [exec_bind, exec_modifyRegistry, closeFrame, exec_get, hd, Nat.add_sub_cancel]
  by_cases h0 : d = 0
  · -- the outermost frame: the stopwatch runs, and is stopped
    subst h0
    obtain ⟨s, hst⟩ := Option.ne_none_iff_exists'.1 fun h' => by
      have := hs.running.2 h'
      omega
    obtain ⟨ts, hexit⟩ := Stopwatch.exit_zero hst hs.chargeable h.clock
    refine ⟨{ h.registry.watch with totals := ts, started := none, responsible := .str unattributed },
      ?_, fun h => absurd rfl h, fun _ => ⟨rfl, rfl⟩⟩
    simp only [Int.natCast_zero, hexit, exec_lift]
  · have hpos : (0 : Int) < (d : Int) := by omega
    refine ⟨h.registry.watch, ?_, fun _ => rfl, fun h => absurd h h0⟩
    simp only [Stopwatch.exit_pos hpos, exec_lift]

end Host

-- A notification keeps the registry if the ones the guard lets in do: the others leave the host as
-- it was.
theorem keeps_notify_of_admitted {react : Reaction σ}
    (hadmitted : ∀ (h : Host σ) u, h.registry.Sound →
      h.registry.scheme.requireValid v "upstream" = .ok u → h.registry.admitsAt h.registry.depth →
      Registry.Kept h.registry ((notify react v).exec h).2.registry) :
    Keeps (notify react v) := by
  intro h hs
  by_cases entered : ∃ u, h.registry.scheme.requireValid v "upstream" = .ok u ∧
      h.registry.admitsAt h.registry.depth
  · obtain ⟨u, hv, ha⟩ := entered
    exact hadmitted h u hs hv ha
  · obtain ⟨f, hf⟩ := exec_notify_refused react entered
    rw [hf]
    exact .refl hs

section Frame

variable {react : Reaction σ} (hk : ∀ l u d, Keeps (react l u d)) {h : Host (σ × List Call)}
include hk

-- A notification the guard lets in: the calls of its phases, each one level deeper than where it
-- started, and what it leaves.
theorem made_notify (hs : h.registry.Sound)
    (hv : h.registry.scheme.requireValid v "upstream" = .ok u)
    (ha : h.registry.admitsAt h.registry.depth) :
    ∃ c₁ c₂ c₃, ((notify (tap react) v).exec h).2.own.2 = h.own.2 ++ (c₁ ++ c₂ ++ c₃) ∧
      Registry.Kept h.registry ((notify (tap react) v).exec h).2.registry ∧
      ((notify (tap react) v).exec h).2.registry.count =
        h.registry.count + 1 + ((c₁ ++ c₂ ++ c₃).map fun c => c.after.count - c.before.count).sum ∧
      (∀ c ∈ c₁ ++ c₂ ++ c₃, c.before.Sound ∧ c.before.depth = h.registry.depth + 1) ∧
      (∀ c ∈ c₁ ++ c₂ ++ c₃, Call.Runs react c) ∧
      Call.Ends (c₁ ++ c₂ ++ c₃) ((notify (tap react) v).exec h).1 ∧
      Call.Phases u h.registry c₁ c₂ c₃ ((notify (tap react) v).exec h).1 := by
  obtain ⟨ts, -, he⟩ := exec_notify_admitted (tap react) hs hv ha
  rw [he]
  generalize hh₁ : ({ h with
      registry := { h.registry with
        count := h.registry.count + 1
        depth := h.registry.depth + 1
        watch := { h.registry.watch with totals := ts, started := some h.clock } } } :
      Host (σ × List Call)) = h₁
  have hs₁ : h₁.registry.Sound := by
    rw [← hh₁]
    exact hs.enter ha _ ts h.clock
  have hd₁ : h₁.registry.depth = h.registry.depth + 1 := by rw [← hh₁]
  have hc₁ : h₁.registry.count = h.registry.count + 1 := by rw [← hh₁]
  have hm₁ : h₁.registry.maxDepth = h.registry.maxDepth := by rw [← hh₁]
  have hsc₁ : h₁.registry.scheme = h.registry.scheme := by rw [← hh₁]
  obtain ⟨c₁, c₂, c₃, m, ph⟩ := made_phases hk (h.registry.count + 1) u h₁ hs₁ (by omega)
  have kept := m.kept hk hs₁ (by omega)
  obtain ⟨w, hc, inner, outer⟩ := exec_close kept.sound (kept.depth.trans hd₁)
  rw [exec_andFinally, hc]
  dsimp only
  have calls := (m.chain.kept hk hs₁ (by omega)).2
  have count := m.chain.count hk hs₁ (by omega)
  rw [← m.reaches] at count
  refine ⟨c₁, c₂, c₃, ?_, ?_, ?_, ?_, m.chain.runs, m.ends, ph.congr ?_ ?_ ?_⟩
  · rw [m.recorded, ← hh₁]
  · -- back at the depth it started from, with the frame closed
    exact ⟨.close hs rfl (kept.maxDepth.trans hm₁) kept.sound (kept.depth.trans hd₁) inner outer,
      kept.scheme.trans hsc₁, kept.maxDepth.trans hm₁, rfl, by dsimp only; omega⟩
  · omega
  · intro c hc
    rw [← hd₁]
    exact calls c hc
  all_goals rw [← hh₁]

-- From a sound registry a notification leaves what a listener may leave, whether the guard lets it
-- in or not: notifications made from inside a listener compose.
theorem keeps_tapped_notify (v : Json) : Keeps (notify (tap react) v : Run (σ × List Call) Unit) :=
  keeps_notify_of_admitted fun _ _ hs hv ha => by
    obtain ⟨_, _, _, -, kept, -⟩ := made_notify hk hs hv ha
    exact kept

theorem notify_balances_frames_of_keeps (h : Host (σ × List Call)) (hs : h.registry.Sound) (v : Json) :
    let p := (notify (tap react) v).exec h
    Registry.Kept h.registry p.2.registry ∧
    (h.registry.depth = 0 →
      p.2.registry.watch.started = none ∧ p.2.registry.watch.responsible = .str unattributed) ∧
    ((∃ u, h.registry.scheme.requireValid v "upstream" = .ok u ∧
        h.registry.admitsAt h.registry.depth) ∧
      (∃ calls, p.2.own.2 = h.own.2 ++ calls ∧
        (∀ c ∈ calls, c.before.Sound ∧ c.before.depth = h.registry.depth + 1) ∧
        Call.Ends calls p.1 ∧
        p.2.registry.count =
          h.registry.count + 1 + (calls.map fun c => c.after.count - c.before.count).sum) ∨
     (¬∃ u, h.registry.scheme.requireValid v "upstream" = .ok u ∧
        h.registry.admitsAt h.registry.depth) ∧
      p.2 = h ∧ ∃ f, p.1 = .error f) := by
  intro p
  by_cases entered : ∃ u, h.registry.scheme.requireValid v "upstream" = .ok u ∧
      h.registry.admitsAt h.registry.depth
  · obtain ⟨u, hv, ha⟩ := entered
    obtain ⟨c₁, c₂, c₃, recorded, kept, count, calls, -, ends, -⟩ := made_notify hk hs hv ha
    exact ⟨kept, kept.idle, .inl ⟨⟨u, hv, ha⟩, c₁ ++ c₂ ++ c₃, recorded, calls, ends, count⟩⟩
  · -- refused: the host is as it was
    obtain ⟨f, hf⟩ := exec_notify_refused (tap react) entered
    rw [show p = (.error f, h) from hf]
    exact ⟨.refl hs, (Registry.Kept.refl hs).idle, .inr ⟨entered, rfl, f, rfl⟩⟩

theorem notify_depth_guard_of_keeps (h : Host (σ × List Call)) (hs : h.registry.Sound) {m : Int}
    (hm : h.registry.maxDepth = some (.int m)) (v : Json) :
    let p := (notify (tap react) v).exec h
    (h.registry.depth : Int) ≤ m ∧ (p.2.registry.depth : Int) ≤ m ∧
    (∃ calls, p.2.own.2 = h.own.2 ++ calls ∧
      ∀ c ∈ calls, c.before.depth = h.registry.depth + 1 ∧ (c.before.depth : Int) ≤ m) ∧
    (h.registry.scheme.isValid v = false →
      p = (.error (.invalidIdentifier v (.invalid "upstream")), h)) ∧
    ∀ u, h.registry.scheme.requireValid v "upstream" = .ok u →
      (p = (.error (.depthExceeded u (.int m)), h) ↔ (h.registry.depth : Int) = m) := by
  intro p
  have bound := hs.depth_le hm
  -- the guard lets a notification in exactly below the limit
  have admits : h.registry.admitsAt h.registry.depth ↔ (h.registry.depth : Int) < m :=
    Registry.admitsAt_int hm _
  refine ⟨bound, ?_, ?_, fun hv => exec_notify_invalid _ (Scheme.requireValid_eq_error hv),
    fun u hv => ⟨fun hp => ?_, fun hd => ?_⟩⟩
  · have kept := keeps_tapped_notify hk v h hs
    exact kept.sound.depth_le (kept.maxDepth.trans hm)
  · by_cases entered : ∃ u, h.registry.scheme.requireValid v "upstream" = .ok u ∧
        h.registry.admitsAt h.registry.depth
    · obtain ⟨u, hv, ha⟩ := entered
      obtain ⟨c₁, c₂, c₃, recorded, -, -, calls, -⟩ := made_notify hk hs hv ha
      refine ⟨c₁ ++ c₂ ++ c₃, recorded, fun c hc => ⟨(calls c hc).2, ?_⟩⟩
      have := admits.1 ha
      rw [(calls c hc).2]
      omega
    · obtain ⟨f, hf⟩ := exec_notify_refused (tap react) entered
      exact ⟨[], by rw [show p = (.error f, h) from hf, List.append_nil], fun _ h => (by cases h)⟩
  · rcases Int.lt_or_eq_of_le bound with hlt | heq
    · -- a notification let in counts itself, so it does not leave the host as it was
      obtain ⟨c₁, c₂, c₃, -, -, count, -⟩ := made_notify hk hs hv (admits.2 hlt)
      rw [show (notify (tap react) v).exec h = _ from hp] at count
      dsimp only at count
      omega
    · exact heq
  · have hr : Json.relate .ge (.int h.registry.depth) (.int m) = .ok true := by
      rw [Json.relate_int, hd]
      simp [Relation.holds]
    exact exec_notify_exceeded _ hv hm hr

end Frame

end Run

end Invalidation
