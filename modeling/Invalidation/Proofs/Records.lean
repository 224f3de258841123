import Invalidation.Proofs.Charges
import Mathlib.Data.List.DropRight

namespace Invalidation

namespace Journal

-- The journal with records appended in turn.
def appendAll (j : Journal) (es : List Entry) : Journal := es.foldl append j

variable {j : Journal} {e : Entry} {es fs : List Entry}

@[simp] theorem appendAll_nil : j.appendAll [] = j := rfl

@[simp] theorem appendAll_cons : j.appendAll (e :: es) = (j.append e).appendAll es := rfl

theorem appendAll_append : j.appendAll (es ++ fs) = (j.appendAll es).appendAll fs :=
  List.foldl_append

-- Keeping the last `n` of a list and then the last `n` of it with more after them keeps the last
-- `n` of all.
theorem rtake_append_rtake {α : Type} (l m : List α) (n : Nat) :
    (l.rtake n ++ m).rtake n = (l ++ m).rtake n := by
  simp only [List.rtake, List.length_append, List.length_drop, List.drop_append, List.drop_drop]
  congr 2 <;> omega

-- A journal within its capacity, with records appended, holds the last of all its records up to
-- its capacity, in order.
theorem appendAll_eq (hj : j.entries.length ≤ j.capacity) (es : List Entry) :
    j.appendAll es = { j with entries := (j.entries ++ es).rtake j.capacity } := by
  induction es generalizing j with
  | nil =>
    have : j.entries.length - j.capacity = 0 := by omega
    simp [List.rtake, this]
  | cons e es ih =>
    have within : (j.append e).entries.length ≤ (j.append e).capacity := by
      simp only [append, List.length_drop, List.length_append, List.length_singleton]
      omega
    rw [appendAll_cons, ih within]
    simp only [append, ← List.rtake.eq_1, rtake_append_rtake, List.append_assoc,
      List.singleton_append]

end Journal

-- A call as the dispatcher writes it down before the listener runs: its journal record, and
-- whether the trace level reached the threshold of its phase.
structure Dispatched where
  entry : Entry
  traced : Bool

namespace Dispatched

-- The trace line of a call.
def line (c : Dispatched) : LogLine :=
  ⟨.debug, .dispatcher, Run.traceLine c.entry.notification c.entry.depth c.entry.changed
    c.entry.downstream c.entry.phase c.entry.component⟩

-- The lines the dispatcher logs for a call.
def lines (c : Dispatched) : List LogLine := if c.traced then [c.line] else []

end Dispatched

namespace Host

variable {σ : Type} {h h₁ h₂ h₃ : Host σ} {ds es : List Dispatched}

-- `h'` is `h` once the calls `ds` were written down: their records appended to the journal, if
-- there is one, and lines logged after those of `h`, among which the dispatcher's are the trace
-- lines of `ds`.
structure Wrote (h h' : Host σ) (ds : List Dispatched) : Prop where
  journal : h'.registry.journal = h.registry.journal.map (·.appendAll (ds.map (·.entry)))
  logs : ∃ ls, h'.logs.toList = h.logs.toList ++ ls ∧
    ls.filter (·.source == .dispatcher) = ds.flatMap (·.lines)

theorem Wrote.refl (h : Host σ) : Wrote h h [] := by
  refine ⟨?_, [], by simp, rfl⟩
  cases h.registry.journal <;> rfl

theorem Wrote.trans (h₁₂ : Wrote h₁ h₂ ds) (h₂₃ : Wrote h₂ h₃ es) : Wrote h₁ h₃ (ds ++ es) := by
  obtain ⟨j₁₂, ls₁₂, l₁₂, f₁₂⟩ := h₁₂
  obtain ⟨j₂₃, ls₂₃, l₂₃, f₂₃⟩ := h₂₃
  refine ⟨?_, ls₁₂ ++ ls₂₃, by rw [l₂₃, l₁₂, List.append_assoc], ?_⟩
  · rw [j₂₃, j₁₂, Option.map_map]
    congr 1
    funext j
    simp [Journal.appendAll_append]
  · rw [List.filter_append, f₁₂, f₂₃, List.flatMap_append]

-- What was written depends on the journals and the logs only.
theorem Wrote.congr {h' : Host σ} (hw : Wrote h h' ds) (hj : h₁.registry.journal = h.registry.journal)
    (hl : h₁.logs = h.logs) (hj' : h₂.registry.journal = h'.registry.journal)
    (hl' : h₂.logs = h'.logs) : Wrote h₁ h₂ ds := by
  obtain ⟨j, ls, l, f⟩ := hw
  exact ⟨by rw [hj', j, hj], ls, by rw [hl', l, hl], f⟩

end Host

namespace Run

variable {σ α : Type}

-- A computation that, inside a frame of a sound registry, writes to the journal and to the
-- dispatcher's log only as the dispatcher writes calls down.
def Recorded (m : Run σ α) : Prop :=
  ∀ h : Host σ, h.registry.Sound → h.registry.depth ≠ 0 → ∃ ds, Host.Wrote h (m.exec h).2 ds

-- Telling a listener writes its call down.
theorem wrote_tell (n : Nat) (ph : Phase) (l : Listener) (u : Text) (d : Option Text)
    (h : Host σ) :
    Host.Wrote h (tell n ph l u d h) [⟨record n h.registry ph l u d, traces h.registry ph⟩] := by
  refine ⟨rfl, ?_⟩
  cases ht : traces h.registry ph
  · exact ⟨[], by simp [tell, ht], rfl⟩
  · exact ⟨[(⟨record n h.registry ph l u d, true⟩ : Dispatched).line],
      by simp [tell, ht, Dispatched.line, record],
      by simp [Dispatched.lines, Dispatched.line]⟩

end Run

namespace Visit

variable {σ : Type} {react : Run.Reaction σ} {n : Nat} {u : Text} {h : Host σ}
  {vs : List (Visit σ)}

-- The call a visit of frame `n` about `u` wrote down, read off the host its listener was called
-- in.
def told (n : Nat) (u : Text) (v : Visit σ) : Dispatched :=
  ⟨Run.record n v.start.registry v.phase v.listener u v.downstream,
    Run.traces v.start.registry v.phase⟩

-- The run lemma of writing: visits write down, each in turn, their own call and then what their
-- listener wrote.
theorem Chain.wrote {ds : Visit σ → List Dispatched} (hc : Chain react n u h vs)
    (hds : ∀ v ∈ vs, Host.Wrote v.start v.finish (ds v)) :
    Host.Wrote h (last h vs) (vs.flatMap fun v => v.told n u :: ds v) := by
  induction vs generalizing h with
  | nil => exact .refl h
  | cons v vs ih =>
    obtain ⟨hstart, -, hcs⟩ := hc
    -- telling reads the depth, the scheme and the trace level the listener is then called with
    have told : v.told n u =
        ⟨Run.record n h.registry v.phase v.listener u v.downstream, Run.traces h.registry v.phase⟩ := by
      simp only [Visit.told, hstart]
      rfl
    have tell : Host.Wrote h v.start [v.told n u] := by
      rw [told, hstart]
      exact Run.wrote_tell ..
    have rest := ih hcs fun w hw => hds w (List.mem_cons_of_mem _ hw)
    have := (tell.trans (hds v List.mem_cons_self)).trans rest
    simpa only [last_cons, List.flatMap_cons, List.singleton_append] using this

end Visit

namespace Run

variable {σ : Type} {react : Reaction σ}

section Notify

variable (hk : ∀ l u d, Keeps (react l u d)) (hr : ∀ l u d, Recorded (react l u d))
include hk hr

-- A notification of recording listeners let in: its visits, what each one's listener wrote, and
-- all the notification wrote: for each visit, its own call at the number and the depth of the
-- frame, then what its listener wrote.
theorem exec_notify_wrote (h : Host σ) (hs : h.registry.Sound) {v : Json} {u : Text}
    (hv : h.registry.scheme.requireValid v "upstream" = .ok u)
    (ha : h.registry.admitsAt h.registry.depth) :
    let h₁ : Host σ := { h with registry := { h.registry with
      count := h.registry.count + 1
      depth := h.registry.depth + 1
      watch := h.registry.watch.tick (.read h.clock) } }
    ∃ (vs : List (Visit σ)) (ds : Visit σ → List Dispatched),
      Visit.Chain react (h.registry.count + 1) u h₁ vs ∧
      (∀ w ∈ vs, Host.Wrote w.start w.finish (ds w)) ∧
      ((notify react v).exec h).2.registry.journal = (Visit.last h₁ vs).registry.journal ∧
      ((notify react v).exec h).2.logs = (Visit.last h₁ vs).logs ∧
      Host.Wrote h ((notify react v).exec h).2 (vs.flatMap fun w =>
        ⟨⟨h.registry.count + 1, h.registry.depth + 1, u, w.downstream, w.phase,
          component h.registry.scheme w.listener w.downstream⟩, traces w.start.registry w.phase⟩ ::
          ds w) := by
  intro h₁
  obtain ⟨w, hw, hs₁, vs₁, vs₂, vs₃, chain, chargeable, -, -, -, hfin⟩ := visits_notify hk h hs hv ha
  rw [Stopwatch.enter_eq hs.chargeable] at hw
  cases hw
  obtain ⟨kept, visits⟩ := chain.kept hk hs₁ (by simp) chargeable
  -- each listener, called inside the frame, wrote calls of its own
  obtain ⟨ds, hds⟩ := Visit.choose_each fun w hw => by
    obtain ⟨sound, depth, -⟩ := visits w hw
    obtain ⟨ds, hds⟩ := hr w.listener u w.downstream w.start sound (by rw [depth]; simp)
    rw [chain.runs w hw] at hds
    exact ⟨ds, hds⟩
  -- every visit is told at the depth of the frame, under the scheme the notification started with
  have told : ∀ w ∈ vs₁ ++ vs₂ ++ vs₃, w.told (h.registry.count + 1) u :: ds w =
      ⟨⟨h.registry.count + 1, h.registry.depth + 1, u, w.downstream, w.phase,
        component h.registry.scheme w.listener w.downstream⟩, traces w.start.registry w.phase⟩ ::
        ds w := by
    intro w hw
    obtain ⟨-, depth, scheme⟩ := visits w hw
    simp only [Visit.told, record, depth, scheme]
  have visited := chain.wrote hds
  rw [List.flatMap_congr told] at visited
  -- opening the frame writes nothing, and neither does closing it
  obtain ⟨w', hclose, -⟩ := exec_close kept.sound kept.depth
  have journal : ((notify react v).exec h).2.registry.journal =
      (Visit.last h₁ (vs₁ ++ vs₂ ++ vs₃)).registry.journal := by
    rw [hfin, hclose]
  have logs : ((notify react v).exec h).2.logs = (Visit.last h₁ (vs₁ ++ vs₂ ++ vs₃)).logs := by
    rw [hfin, hclose]
  exact ⟨vs₁ ++ vs₂ ++ vs₃, ds, chain, hds, journal, logs, visited.congr rfl rfl journal logs⟩

-- A notification of recording listeners, from a sound registry. Refused, it writes nothing. Let
-- in, it makes its visits one after the other, the last one possibly failed, and writes down, for
-- each in turn, the visit's own call, with the frame's number and depth, the identifiers, the
-- phase and the component, traced as the trace level then stands, and then what the visit's
-- listener wrote, the calls of nested notifications among it. A journal within its capacity ends
-- with the last of its records and of those written, up to its capacity, in order.
theorem notify_records_every_call_of_recorded (h : Host σ) (hs : h.registry.Sound) (v : Json) :
    let p := (notify react v).exec h
    ((¬∃ u, h.registry.scheme.requireValid v "upstream" = .ok u ∧
        h.registry.admitsAt h.registry.depth) → p.2 = h) ∧
    ∀ u, h.registry.scheme.requireValid v "upstream" = .ok u →
      h.registry.admitsAt h.registry.depth →
      let h₁ : Host σ := { h with registry := { h.registry with
        count := h.registry.count + 1
        depth := h.registry.depth + 1
        watch := h.registry.watch.tick (.read h.clock) } }
      ∃ (vs : List (Visit σ)) (ds : Visit σ → List Dispatched),
        Visit.Chain react (h.registry.count + 1) u h₁ vs ∧
        (∀ w ∈ vs, Host.Wrote w.start w.finish (ds w)) ∧
        p.2.registry.journal = (Visit.last h₁ vs).registry.journal ∧
        p.2.logs = (Visit.last h₁ vs).logs ∧
        let calls := vs.flatMap fun w =>
          ⟨⟨h.registry.count + 1, h.registry.depth + 1, u, w.downstream, w.phase,
            component h.registry.scheme w.listener w.downstream⟩, traces w.start.registry w.phase⟩ ::
            ds w
        Host.Wrote h p.2 calls ∧
        ((∀ j ∈ h.registry.journal, j.entries.length ≤ j.capacity) →
          p.2.registry.journal = h.registry.journal.map fun j =>
            { j with entries := (j.entries ++ calls.map (·.entry)).rtake j.capacity }) := by
  intro p
  refine ⟨fun refused => ?_, fun u hv ha => ?_⟩
  · obtain ⟨f, hf⟩ := exec_notify_refused react refused
    show ((notify react v).exec h).2 = h
    rw [hf]
  obtain ⟨vs, ds, chain, hds, journal, logs, wrote⟩ := exec_notify_wrote hk hr h hs hv ha
  refine ⟨vs, ds, chain, hds, journal, logs, wrote, fun within => ?_⟩
  rw [wrote.journal]
  cases hj : h.registry.journal with
  | none => rfl
  | some j => exact congrArg some (Journal.appendAll_eq (within j hj) _)

-- A notification made from inside a recording listener records too: nested notifications
-- compose.
theorem recorded_notify (v : Json) : Recorded (notify react v) := by
  intro h hs _
  by_cases entered : ∃ u, h.registry.scheme.requireValid v "upstream" = .ok u ∧
      h.registry.admitsAt h.registry.depth
  · obtain ⟨u, hv, ha⟩ := entered
    obtain ⟨_, _, -, -, -, -, wrote⟩ := exec_notify_wrote hk hr h hs hv ha
    exact ⟨_, wrote⟩
  · obtain ⟨f, hf⟩ := exec_notify_refused react entered
    exact ⟨[], by rw [hf]; exact .refl h⟩

end Notify

end Run

end Invalidation
