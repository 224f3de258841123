import Invalidation.Proofs.Stable
import Invalidation.Proofs.Reportable
import Invalidation.Proofs.Records

namespace Invalidation

theorem Graph.source_deregisterAll {g g' : Graph} {sc : Scheme} {y : Json} {line : Option LogLine}
    (h : g.deregisterAll sc y = .ok (g', line)) : ∀ l, line = some l → l.source = .graph := by
  intro l hl
  obtain ⟨d, -, hr⟩ := Except.bind_eq_ok.1 h
  dsimp only at hr
  split at hr
  · cases hr
    cases hl
  · obtain ⟨g₁, -, hr⟩ := Except.bind_eq_ok.1 hr
    cases hr
    cases hl
    rfl

namespace Registry

variable {r₀ r : Registry}

theorem Kept.graph (hk : Kept r₀ r) {g : Graph} (hg : g.Wellformed r.scheme) :
    Kept r₀ { r with graph := g } :=
  ⟨{ hk.sound with graph := hg }, hk.scheme, hk.maxDepth, hk.depth, hk.count⟩

theorem Kept.roster (hk : Kept r₀ r) {ro : Roster}
    (hkinds : ∀ o ∈ ro.observers, o.kind.isHashable = true) : Kept r₀ { r with roster := ro } :=
  ⟨{ hk.sound with kinds := hkinds }, hk.scheme, hk.maxDepth, hk.depth, hk.count⟩

theorem Kept.trace (hk : Kept r₀ r) {t : Json} (ht : t.number?.isSome) :
    Kept r₀ { r with trace := t } :=
  ⟨{ hk.sound with traced := ht }, hk.scheme, hk.maxDepth, hk.depth, hk.count⟩

theorem Kept.journal (hk : Kept r₀ r) (j : Option Journal) : Kept r₀ { r with journal := j } :=
  ⟨{ hk.sound with }, hk.scheme, hk.maxDepth, hk.depth, hk.count⟩

-- Resetting the timings keeps the stopwatch running, and the component responsible.
theorem Kept.reset (hk : Kept r₀ r) : Kept r₀ { r with watch := r.watch.reset } :=
  ⟨{ hk.sound with }, hk.scheme, hk.maxDepth, hk.depth, hk.count⟩

end Registry

namespace Host

variable {σ : Type} {h₀ h : Host σ}

-- What a command other than a notification, a reset of the timings or a clearing of the journal
-- does to a host: it keeps what a listener must keep, with the count, the stopwatch and the
-- journal as they were, and logs no line of the dispatcher's.
structure Steady (h₀ h : Host σ) : Prop where
  kept : Registry.Kept h₀.registry h.registry
  count : h.registry.count = h₀.registry.count
  watch : h.registry.watch = h₀.registry.watch
  journal : h.registry.journal = h₀.registry.journal
  logs : ∃ ls, h.logs.toList = h₀.logs.toList ++ ls ∧ ∀ l ∈ ls, l.source ≠ .dispatcher

theorem Steady.refl (hs : h.registry.Sound) : Steady h h :=
  ⟨.refl hs, rfl, rfl, rfl, [], by simp, by simp⟩

theorem Steady.graph (hJ : Steady h₀ h) {g : Graph} (hg : g.Wellformed h₀.registry.scheme) :
    Steady h₀ { h with registry := { h.registry with graph := g } } :=
  ⟨hJ.kept.graph (hJ.kept.scheme ▸ hg), hJ.count, hJ.watch, hJ.journal, hJ.logs⟩

theorem Steady.roster (hJ : Steady h₀ h) {ro : Roster}
    (hkinds : ∀ o ∈ ro.observers, o.kind.isHashable = true) :
    Steady h₀ { h with registry := { h.registry with roster := ro } } :=
  ⟨hJ.kept.roster hkinds, hJ.count, hJ.watch, hJ.journal, hJ.logs⟩

theorem Steady.trace (hJ : Steady h₀ h) {t : Json} (ht : t.number?.isSome) :
    Steady h₀ { h with registry := { h.registry with trace := t } } :=
  ⟨hJ.kept.trace ht, hJ.count, hJ.watch, hJ.journal, hJ.logs⟩

theorem Steady.clock (hJ : Steady h₀ h) (c : Float) : Steady h₀ { h with clock := c } :=
  ⟨hJ.kept, hJ.count, hJ.watch, hJ.journal, hJ.logs⟩

theorem Steady.log (hJ : Steady h₀ h) {l : LogLine} (hl : l.source ≠ .dispatcher) :
    Steady h₀ { h with logs := h.logs.push l } := by
  obtain ⟨ls, hls, hsrc⟩ := hJ.logs
  refine ⟨hJ.kept, hJ.count, hJ.watch, hJ.journal, ls ++ [l], ?_, ?_⟩
  · simp [hls]
  · intro x hx
    rcases List.mem_append.1 hx with hx | hx
    · exact hsrc x hx
    · rw [List.mem_singleton.1 hx]
      exact hl

-- Such a command writes no call down.
theorem Steady.wrote (hJ : Steady h₀ h) : Wrote h₀ h [] := by
  obtain ⟨ls, hls, hsrc⟩ := hJ.logs
  refine ⟨?_, ls, hls, ?_⟩
  · rw [hJ.journal]
    cases h₀.registry.journal <;> rfl
  · simpa [List.filter_eq_nil_iff] using hsrc

-- What a listener that charges time as ticks leaves of the host `h₀` it is called in.
structure Timed (h₀ h : Host σ) : Prop where
  kept : Registry.Kept h₀.registry h.registry
  ticks : h₀.registry.depth ≠ 0 → ∃ ts, h.registry.watch = h₀.registry.watch.play ts

-- What a listener that writes down only calls leaves of the host `h₀` it is called in.
structure Writes (h₀ h : Host σ) : Prop where
  kept : Registry.Kept h₀.registry h.registry
  wrote : h₀.registry.depth ≠ 0 → ∃ ds, Wrote h₀ h ds

end Host

namespace Run

variable {σ α : Type} {m : Run σ α}

-- Keeping the registry is being stable for every host a call may start from.
theorem keeps_iff_stable :
    Keeps m ↔ ∀ h₀ : Host σ, Stable (fun h => Registry.Kept h₀.registry h.registry) m := by
  constructor
  · intro hm h₀ h hk
    exact hk.trans (hm h hk.sound)
  · intro hm h hs
    exact hm h h (.refl hs)

theorem timed_iff_stable :
    (Keeps m ∧ Clocked m) ↔ ∀ h₀ : Host σ, Stable (Host.Timed h₀) m := by
  constructor
  · rintro ⟨hk, hc⟩ h₀ h ⟨kept, ticks⟩
    have kept' := hk h kept.sound
    refine ⟨kept.trans kept', fun hd => ?_⟩
    obtain ⟨ts, hts⟩ := ticks hd
    obtain ⟨us, hus⟩ := hc h kept.sound (by rw [kept.depth]; exact hd)
    exact ⟨ts ++ us, by rw [hus, hts, Stopwatch.play_append]⟩
  · intro hm
    have step := fun h (hs : h.registry.Sound) => hm h h ⟨.refl hs, fun _ => ⟨[], rfl⟩⟩
    exact ⟨fun h hs => (step h hs).kept, fun h hs hd => (step h hs).ticks hd⟩

theorem writes_iff_stable :
    (Keeps m ∧ Recorded m) ↔ ∀ h₀ : Host σ, Stable (Host.Writes h₀) m := by
  constructor
  · rintro ⟨hk, hr⟩ h₀ h ⟨kept, wrote⟩
    refine ⟨kept.trans (hk h kept.sound), fun hd => ?_⟩
    obtain ⟨ds, hds⟩ := wrote hd
    obtain ⟨es, hes⟩ := hr h kept.sound (by rw [kept.depth]; exact hd)
    exact ⟨ds ++ es, hds.trans hes⟩
  · intro hm
    have step := fun h (hs : h.registry.Sound) => hm h h ⟨.refl hs, fun _ => ⟨[], .refl h⟩⟩
    exact ⟨fun h hs => (step h hs).kept, fun h hs hd => (step h hs).wrote hd⟩

variable {h₀ : Host σ}

theorem stable_log {l : LogLine} (hl : l.source ≠ .dispatcher) :
    Stable (Host.Steady h₀) (log l : Run σ Unit) :=
  stable_modify fun _ hJ => hJ.log hl

theorem stable_logSome {o : Option LogLine} (hl : ∀ l, o = some l → l.source ≠ .dispatcher) :
    Stable (Host.Steady h₀) (logSome o : Run σ Unit) := by
  cases o with
  | none => exact stable_pure ()
  | some l => exact stable_log (hl l rfl)

end Run

namespace Script

open Run

-- Whether a command is none of a notification, a reset of the timings and a clearing of the journal.
def Command.quiet : Command → Bool
  | .notify _ | .resetTimings | .logClear => false
  | _ => true

section Steady

variable {cast : Cast} (hcast : ∀ e ∈ cast, e.2.listener.kind.IsText)
include hcast

-- A command that notifies nobody and leaves the stopwatch and the journal alone: what it changes
-- of the graph, the listeners and the trace level keeps the registry sound.
theorem steady_perform (react : Reaction Stage) (c : Command) (hc : c.quiet = true)
    (h₀ : Host Stage) : Stable (Host.Steady h₀) (perform cast react c) := by
  have read : ∀ k : Registry → Json,
      Stable (Host.Steady h₀) (registry >>= fun r => pure (k r) : Play Json) :=
    fun _ => stable_registry_bind fun _ _ => stable_pure _
  have compute : ∀ {β : Type} (g : Registry → Except Fault β) (k : β → Json),
      Stable (Host.Steady h₀) (registry >>= fun r => lift (g r) >>= fun x => pure (k x) : Play Json) :=
    fun _ _ => stable_registry_bind fun _ _ => stable_lift_bind fun _ _ => stable_pure _
  -- a new graph computed from the registry is well formed under its scheme
  have graph : ∀ f : Registry → Except Fault Graph,
      (∀ r g, r.graph.Wellformed r.scheme → f r = .ok g → g.Wellformed r.scheme) →
      Stable (Host.Steady h₀) (changeGraph f) := by
    intro f hf
    refine stable_registry_bind fun h hJ => stable_lift_bind fun g hg => ?_
    have wf : g.Wellformed h₀.registry.scheme :=
      hJ.kept.scheme ▸ hf _ _ hJ.kept.sound.graph hg
    exact (stable_modify fun _ hJ' => hJ'.graph wf).bind fun _ => stable_pure _
  cases c with
  | register u d => exact graph _ fun _ _ hw hg => hw.register hg
  | deregister u d => exact graph _ fun _ _ hw hg => hw.deregister hg
  | deregisterAll d =>
    refine stable_registry_bind fun h hJ => stable_lift_bind fun ⟨g, line⟩ hg => ?_
    have wf : g.Wellformed h₀.registry.scheme :=
      hJ.kept.scheme ▸ hJ.kept.sound.graph.deregisterAll hg
    exact (stable_modify fun _ hJ' => hJ'.graph wf).bind fun _ =>
      (stable_logSome fun l hl => by simp [Graph.source_deregisterAll hg l hl]).bind fun _ =>
        stable_pure _
  | isValid u d | downstream u | dependencies u | allDownstream u | allDependencies u | has u d |
    timings => exact compute _ _
  | contains u d form =>
    cases form with
    | other => exact stable_pure _
    | pair | edge => exact compute _ _
  | edges | identifiers | size | graphDict | listeners | listenerCount | totalSeconds |
    responsible | state => exact read _
  | clear =>
    exact (stable_modify fun _ hJ => hJ.graph Graph.wellformed_empty).bind fun _ => stable_pure _
  | notify u | resetTimings | logClear => cases hc
  | addListener who =>
    -- the listener registered is one of the script's, with a kind that can be a key
    refine (stable_resolve who).bind_of (fun _ _ _ hres => resolve_isText hcast who hres)
      fun o ho => ?_
    refine stable_registry_bind fun h hJ => stable_lift_bind fun ⟨ro, line⟩ hadd => ?_
    obtain ⟨l, rfl, -, hobs, hsource⟩ := Roster.add_spec hadd
    have kinds : ∀ x ∈ ro.observers, x.kind.isHashable = true := by
      intro x hx
      rcases hobs x hx with hx | rfl
      · exact hJ.kept.sound.kinds x hx
      · exact Json.isHashable_of_isText (ho x rfl)
    exact (stable_modify fun _ hJ' => hJ'.roster kinds).bind fun _ =>
      (stable_logSome fun m hm => by simp [hsource m hm]).bind fun _ => stable_pure _
  | removeListener who =>
    refine (stable_resolve who).bind fun o => ?_
    refine stable_registry_bind fun h hJ => stable_lift_bind fun ⟨ro, line⟩ hrem => ?_
    obtain ⟨-, hobs, hsource⟩ := Roster.remove_spec hrem
    have kinds : ∀ x ∈ ro.observers, x.kind.isHashable = true :=
      fun x hx => hJ.kept.sound.kinds x (hobs x hx)
    exact (stable_modify fun _ hJ' => hJ'.roster kinds).bind fun _ =>
      (stable_logSome fun m hm => by simp [hsource m hm]).bind fun _ => stable_pure _
  | setTrace level =>
    -- a level is set only once it passed its check, so it is a number
    refine stable_lift_bind fun _ hchk => ?_
    have traced : level.number?.isSome := Json.number_of_relate_int (Registry.relate_of_checkTrace hchk)
    exact (stable_modify fun _ hJ => hJ.trace traced).bind fun _ =>
      (stable_log (by simp)).bind fun _ => stable_pure _
  | advance s =>
    exact stable_get_bind fun h hJ => stable_lift_bind fun c _ =>
      (show Stable _ (set { h with clock := c } : Play PUnit) from fun _ _ => hJ.clock c).bind
        fun _ => stable_pure _
  | report withEdges => exact stable_registry_bind fun _ _ => stable_lift _
  | logQuery u d phases n limit =>
    exact stable_journal.bind fun _ => stable_lift_bind fun _ _ =>
      stable_lift_bind fun _ _ => stable_pure _
  | logRecent n =>
    refine stable_journal.bind fun _ => ?_
    dsimp only
    split
    · exact (stable_pure _).bind fun _ => stable_pure _
    · exact stable_journal.bind fun _ => (stable_pure _).bind fun _ => stable_pure _
    · exact (stable_throw _).bind fun _ => stable_pure _
  | logLength | logDict => exact stable_journal.bind fun _ => stable_pure _
  | fail m => exact stable_throw _

variable {react : Reaction Stage}

-- Every command keeps the registry when the reactions it sets off do.
theorem keeps_perform (hk : ∀ l u d, Keeps (react l u d)) (c : Command) :
    Keeps (perform cast react c) := by
  cases hq : c.quiet with
  | true => exact fun h hs => (steady_perform hcast react c hq h h (.refl hs)).kept
  | false =>
    refine keeps_iff_stable.2 fun h₀ => ?_
    cases c with
    | notify u => exact (keeps_iff_stable.1 (keeps_notify hk u) h₀).bind fun _ => stable_pure _
    | resetTimings => exact (stable_modify fun _ hJ => hJ.reset).bind fun _ => stable_pure _
    | logClear =>
      exact stable_journal.bind fun _ => (stable_modify fun _ hJ => hJ.journal _).bind fun _ =>
        stable_pure _
    | _ => cases hq

-- Every command but a reset of the timings charges time as ticks when the reactions it sets off
-- do.
theorem timed_perform (hk : ∀ l u d, Keeps (react l u d)) (ht : ∀ l u d, Clocked (react l u d))
    (c : Command) (hc : c ≠ .resetTimings) : Keeps (perform cast react c) ∧ Clocked (perform cast react c) := by
  refine ⟨keeps_perform hcast hk c, ?_⟩
  cases hq : c.quiet with
  | true =>
    intro h hs _
    have steady := steady_perform hcast react c hq h h (.refl hs)
    exact ⟨[], steady.watch⟩
  | false =>
    refine (timed_iff_stable.2 fun h₀ => ?_).2
    cases c with
    | notify u =>
      exact (timed_iff_stable.1 ⟨keeps_notify hk u, clocked_notify hk ht u⟩ h₀).bind fun _ =>
        stable_pure _
    | resetTimings => exact absurd rfl hc
    | logClear =>
      exact stable_journal.bind fun _ =>
        (stable_modify fun _ hJ => ⟨hJ.kept.journal _, hJ.ticks⟩).bind fun _ => stable_pure _
    | _ => cases hq

-- Every command but a clearing of the journal writes down only calls when the reactions it sets
-- off do.
theorem writes_perform (hk : ∀ l u d, Keeps (react l u d)) (hr : ∀ l u d, Recorded (react l u d))
    (c : Command) (hc : c ≠ .logClear) :
    Keeps (perform cast react c) ∧ Recorded (perform cast react c) := by
  refine ⟨keeps_perform hcast hk c, ?_⟩
  cases hq : c.quiet with
  | true =>
    intro h hs _
    exact ⟨[], (steady_perform hcast react c hq h h (.refl hs)).wrote⟩
  | false =>
    refine (writes_iff_stable.2 fun h₀ => ?_).2
    cases c with
    | notify u =>
      exact (writes_iff_stable.1 ⟨keeps_notify hk u, recorded_notify hk hr u⟩ h₀).bind fun _ =>
        stable_pure _
    | resetTimings =>
      exact (stable_modify fun _ hJ => ⟨hJ.kept.reset, fun hd =>
        (hJ.wrote hd).imp fun _ hw => hw.congr rfl rfl rfl rfl⟩).bind fun _ => stable_pure _
    | logClear => exact absurd rfl hc
    | _ => cases hq

end Steady

section Play

variable {cast : Cast} (hcast : ∀ e ∈ cast, e.2.listener.kind.IsText)
include hcast

-- Scripted listeners keep the registry, and so does every step they run, at every allowance.
theorem keeps_play (n : Nat) :
    (∀ l u d, Keeps (react cast n l u d)) ∧ ∀ step, Keeps (exec cast n step) := by
  have hacts : cast.Acts fun _ => True := fun _ _ _ _ _ _ _ _ _ _ _ _ _ _ => trivial
  have play := stable_play (J := fun (h₀ h : Host Stage) => Registry.Kept h₀.registry h.registry)
    (fun _ _ _ hk => hk) hacts
    (fun react hreact c _ => keeps_iff_stable.1 (keeps_perform hcast
      (fun l u d => keeps_iff_stable.2 (hreact l u d)) c)) n
  exact ⟨fun l u d => keeps_iff_stable.2 (play.1 l u d),
    fun step => keeps_iff_stable.2 (play.2 step fun _ _ => trivial)⟩

-- Scripted listeners whose actions never reset the timings charge time as ticks inside a frame.
theorem timed_play (hacts : cast.Acts (· ≠ .resetTimings)) (n : Nat) :
    ∀ l u d, Keeps (react cast n l u d) ∧ Clocked (react cast n l u d) := by
  have play := stable_play (J := Host.Timed) (fun _ _ _ hJ => ⟨hJ.kept, hJ.ticks⟩) hacts
    (fun react hreact c hc => timed_iff_stable.1 (timed_perform hcast
      (fun l u d => (timed_iff_stable.2 (hreact l u d)).1)
      (fun l u d => (timed_iff_stable.2 (hreact l u d)).2) c hc)) n
  exact fun l u d => timed_iff_stable.2 (play.1 l u d)

-- Scripted listeners whose actions never clear the journal write down only calls inside a frame.
theorem writes_play (hacts : cast.Acts (· ≠ .logClear)) (n : Nat) :
    ∀ l u d, Keeps (react cast n l u d) ∧ Recorded (react cast n l u d) := by
  have play := stable_play (J := Host.Writes)
    (fun _ _ _ hJ => ⟨hJ.kept, fun hd => (hJ.wrote hd).imp fun _ hw => hw.congr rfl rfl rfl rfl⟩)
    hacts
    (fun react hreact c hc => writes_iff_stable.1 (writes_perform hcast
      (fun l u d => (writes_iff_stable.2 (hreact l u d)).1)
      (fun l u d => (writes_iff_stable.2 (hreact l u d)).2) c hc)) n
  exact fun l u d => writes_iff_stable.2 (play.1 l u d)

-- A whole script keeps the registry, whatever its steps and however they fail.
theorem keeps_runSteps (steps : List Json) : Keeps (runSteps cast steps) :=
  keeps_iff_stable.2 fun h₀ => stable_runSteps (fun _ hk => hk) steps
    fun step _ => keeps_iff_stable.1 ((keeps_play hcast allowance).2 step) h₀

-- From a registry at rest, a whole script leaves it sound and at rest: at depth zero, with no
-- frame open and no component responsible.
theorem runSteps_rests (steps : List Json) (h : Host Stage) (hs : h.registry.Sound)
    (h0 : h.registry.depth = 0) :
    let h' := ((runSteps cast steps).exec h).2
    Registry.Kept h.registry h'.registry ∧ h'.registry.watch.started = none ∧
      h'.registry.watch.responsible = .str unattributed := by
  intro h'
  have kept := keeps_runSteps hcast steps h hs
  exact ⟨kept, kept.idle h0⟩

-- A command that notifies nobody and does not clear the journal writes nothing down.
theorem perform_writes_nothing (react : Reaction Stage) (c : Command)
    (hc : c.quiet = true ∨ c = .resetTimings) (h : Host Stage) (hs : h.registry.Sound) :
    Host.Wrote h ((perform cast react c).exec h).2 [] := by
  rcases hc with hq | rfl
  · exact (steady_perform hcast react c hq h h (.refl hs)).wrote
  · -- resetting the timings touches neither the journal nor the logs
    exact (Host.Wrote.refl h).congr rfl rfl rfl rfl

-- Every command but a clearing of the journal writes down the calls it sets off, from any sound
-- host, when the script's actions never clear the journal.
theorem wrote_perform (hclear : cast.Acts (· ≠ .logClear)) (n : Nat) (c : Command)
    (hc : c ≠ .logClear) (h : Host Stage) (hs : h.registry.Sound) :
    ∃ ds, Host.Wrote h ((perform cast (react cast n) c).exec h).2 ds := by
  cases hq : c.quiet with
  | true => exact ⟨[], perform_writes_nothing hcast _ c (.inl hq) h hs⟩
  | false =>
    cases c with
    | notify v =>
      have notified := notify_records_every_call_of_recorded
        (fun l u d => (writes_play hcast hclear n l u d).1)
        (fun l u d => (writes_play hcast hclear n l u d).2) h hs v
      have host : ((perform cast (react cast n) (.notify v)).exec h).2 =
          ((notify (react cast n) v).exec h).2 := by
        simp only [perform, exec_bind]
        split <;> simp_all [exec_pure]
      rw [host]
      by_cases entered : ∃ u, h.registry.scheme.requireValid v "upstream" = .ok u ∧
          h.registry.admitsAt h.registry.depth
      · obtain ⟨u, hv, ha⟩ := entered
        obtain ⟨_, _, -, -, -, -, wrote, -⟩ := notified.2 u hv ha
        exact ⟨_, wrote⟩
      · rw [notified.1 entered]
        exact ⟨[], .refl h⟩
    | resetTimings => exact ⟨[], perform_writes_nothing hcast _ _ (.inr rfl) h hs⟩
    | logClear => exact absurd rfl hc
    | _ => cases hq

-- Over a run of steps none of which clears the journal, the journal only has records appended.
theorem journal_runSteps (hclear : cast.Acts (· ≠ .logClear)) (steps : List Json)
    (hsteps : ∀ s ∈ steps, Performs (· ≠ .logClear) s) (h₀ : Host Stage) (hs : h₀.registry.Sound) :
    ∃ es, ((runSteps cast steps).exec h₀).2.registry.journal =
      h₀.registry.journal.map (·.appendAll es) := by
  -- the invariant: the registry kept, and the journal that of the start with records appended
  let J : Host Stage → Prop := fun h => Registry.Kept h₀.registry h.registry ∧
    ∃ es, h.registry.journal = h₀.registry.journal.map (·.appendAll es)
  have step : ∀ s ∈ steps, Stable J (exec cast allowance s) := by
    intro s hmem h ⟨kept, es, hj⟩
    rw [exec_allowance, exec_bind, exec_lift]
    cases hcmd : Command.ofJson s with
    | error f => exact ⟨kept, es, hj⟩
    | ok c =>
      obtain ⟨ds, wrote⟩ := wrote_perform hcast hclear _ c (hsteps s hmem c hcmd) h kept.sound
      have kept' := keeps_perform hcast (keeps_play hcast (allowance - 1)).1 c h kept.sound
      refine ⟨kept.trans kept', es ++ ds.map (·.entry), ?_⟩
      rw [wrote.journal, hj, Option.map_map]
      congr 1
      funext j
      exact (Journal.appendAll_append).symm
  have start : J h₀ := ⟨.refl hs, [], by cases h₀.registry.journal <;> rfl⟩
  exact (stable_runSteps (fun _ hJ => hJ) steps step h₀ start).2

end Play

end Script

end Invalidation
