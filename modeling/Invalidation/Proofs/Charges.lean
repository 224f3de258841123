import Invalidation.Proofs.Visits
import Mathlib.Algebra.Order.Group.Defs
import Mathlib.Algebra.BigOperators.Group.List.Basic

namespace Invalidation

namespace Stopwatch

-- The totals with `d` more charged to component `c`, kept as charging keeps them: under the
-- component first charged that is alike to `c`, else last.
def credit (ts : List (Json × Float)) (c : Json) (d : Float) : List (Json × Float) :=
  let t := ((ts.find? fun e => Json.equiv e.1 c).map (·.2)).getD 0.0 + d
  if ts.any (fun e => Json.equiv e.1 c) then
    ts.map fun e => if Json.equiv e.1 c then (e.1, t) else e
  else ts ++ [(c, t)]

theorem charge_eq {w : Stopwatch} (hc : w.responsible.isHashable = true) (d : Float) :
    w.charge d = .ok { w with totals := credit w.totals w.responsible d } := by
  simp only [charge, hc, totalOf?, credit]
  rfl

-- What the stopwatch sees of a notification: a component made responsible, or a reading of the
-- clock as a nested frame opens.
inductive Tick where
  | tell (c : Json)
  | read (t : Float)

-- One tick. A reading charges the time since the last one to the responsible component and
-- restarts from it; with no reading yet it only starts the stopwatch.
def tick (w : Stopwatch) : Tick → Stopwatch
  | .tell c => { w with responsible := c }
  | .read t =>
    match w.started with
    | some s => { w with totals := credit w.totals w.responsible (t - s), started := some t }
    | none => { w with started := some t }

-- The stopwatch after a run of ticks.
def play (w : Stopwatch) (ts : List Tick) : Stopwatch := ts.foldl tick w

-- The time between two readings, charged to the component responsible at its end.
structure Span where
  component : Json
  start : Float
  stop : Float

-- The spans between the readings of a run of ticks that follows a reading at `s`, with `c`
-- responsible at first.
def spans (c : Json) (s : Float) : List Tick → List Span
  | [] => []
  | .tell c' :: ts => spans c' s ts
  | .read t :: ts => ⟨c, s, t⟩ :: spans c t ts

-- The last reading of a run of ticks that follows a reading at `s`.
def lastRead (s : Float) : List Tick → Float
  | [] => s
  | .tell _ :: ts => lastRead s ts
  | .read t :: ts => lastRead t ts

-- The component responsible after a run of ticks, with `c` responsible at first.
def lastTold (c : Json) : List Tick → Json
  | [] => c
  | .tell c' :: ts => lastTold c' ts
  | .read _ :: ts => lastTold c ts

-- The readings of a run of ticks, in order.
def reads : List Tick → List Float
  | [] => []
  | .tell _ :: ts => reads ts
  | .read t :: ts => t :: reads ts

-- The totals with each span charged in turn.
def creditAll (ts : List (Json × Float)) (ss : List Span) : List (Json × Float) :=
  ss.foldl (fun ts s => credit ts s.component (s.stop - s.start)) ts

section Ticks

variable {w : Stopwatch} {c c' : Json} {s t : Float} {ts us : List Tick}

@[simp] theorem play_nil : w.play [] = w := rfl

@[simp] theorem play_cons (k : Tick) : w.play (k :: ts) = (w.tick k).play ts := rfl

theorem play_append : w.play (ts ++ us) = (w.play ts).play us := List.foldl_append

theorem play_concat (k : Tick) : (w.play ts).tick k = w.play (ts ++ [k]) := by
  rw [play_append, play_cons, play_nil]

@[simp] theorem spans_tell : spans c s (.tell c' :: ts) = spans c' s ts := rfl

@[simp] theorem spans_read : spans c s (.read t :: ts) = ⟨c, s, t⟩ :: spans c t ts := rfl

@[simp] theorem lastRead_tell : lastRead s (.tell c :: ts) = lastRead s ts := rfl

@[simp] theorem lastRead_read : lastRead s (.read t :: ts) = lastRead t ts := rfl

@[simp] theorem lastTold_tell : lastTold c (.tell c' :: ts) = lastTold c' ts := rfl

@[simp] theorem lastTold_read : lastTold c (.read t :: ts) = lastTold c ts := rfl

@[simp] theorem reads_tell : reads (.tell c :: ts) = reads ts := rfl

@[simp] theorem reads_read : reads (.read t :: ts) = t :: reads ts := rfl

theorem reads_append : reads (ts ++ us) = reads ts ++ reads us := by
  induction ts with
  | nil => rfl
  | cons k ts ih => cases k <;> simp [ih]

theorem lastRead_append_read : lastRead s (ts ++ [.read t]) = t := by
  induction ts generalizing s with
  | nil => rfl
  | cons k ts ih => cases k <;> simp [ih]

@[simp] theorem creditAll_cons (tot : List (Json × Float)) (sp : Span) (ss : List Span) :
    creditAll tot (sp :: ss) = creditAll (credit tot sp.component (sp.stop - sp.start)) ss := rfl

-- The closed form of a run of ticks on a running stopwatch: the spans between its readings are
-- charged, each to the component told last before its end.
theorem play_eq (hs : w.started = some s) :
    w.play ts = { w with
      totals := creditAll w.totals (spans w.responsible s ts)
      started := some (lastRead s ts)
      responsible := lastTold w.responsible ts } := by
  induction ts generalizing w s with
  | nil => cases w; cases hs; rfl
  | cons k ts ih =>
    cases k with
    | tell c =>
      have step : w.tick (.tell c) = { w with responsible := c } := rfl
      rw [play_cons, step, ih (w := { w with responsible := c }) hs]
      rfl
    | read t =>
      have step : w.tick (.read t) =
          { w with totals := credit w.totals w.responsible (t - s), started := some t } := by
        simp [tick, hs]
      rw [play_cons, step, ih rfl]
      rfl

-- The spans after a reading at `s` follow each other from `s` to the last reading, so their
-- lengths add up, in exact arithmetic, to the time between the two.
theorem sum_spans {α : Type} [AddCommGroup α] (val : Float → α) (c : Json) (s : Float)
    (ts : List Tick) :
    ((spans c s ts).map fun sp => val sp.stop - val sp.start).sum = val (lastRead s ts) - val s := by
  induction ts generalizing c s with
  | nil => simp [spans, lastRead]
  | cons k ts ih =>
    cases k with
    | tell c' => simpa using ih c' s
    | read t =>
      rw [spans_read, List.map_cons, List.sum_cons, ih, lastRead_read]
      abel

-- When the clock never goes back, no span is negative.
theorem spans_nonneg {α : Type} [AddCommGroup α] [PartialOrder α] [IsOrderedAddMonoid α]
    (val : Float → α) (c : Json) (s : Float) (ts : List Tick)
    (hmono : (s :: reads ts).IsChain fun a b => val a ≤ val b) :
    ∀ sp ∈ spans c s ts, 0 ≤ val sp.stop - val sp.start := by
  induction ts generalizing c s with
  | nil => simp [spans]
  | cons k ts ih =>
    cases k with
    | tell c' => simpa using ih c' s (by simpa using hmono)
    | read t =>
      simp only [reads_read, List.isChain_cons_cons] at hmono
      simp only [spans_read, List.mem_cons, forall_eq_or_imp]
      exact ⟨sub_nonneg.2 hmono.1, ih c t hmono.2⟩

end Ticks

variable {w : Stopwatch}

-- Opening a frame is a reading.
theorem enter_eq (hc : w.responsible.isHashable = true) (now : Float) :
    w.enter now = .ok (w.tick (.read now)) := by
  unfold enter
  cases hs : w.started with
  | none => simp [tick, hs]; rfl
  | some s => simp [charge_eq hc, tick, hs, bind, Except.bind]; rfl

-- Closing the outermost frame is a last reading, after which the stopwatch stops and no
-- component is responsible.
theorem exit_zero_eq {s : Float} (hs : w.started = some s) (hc : w.responsible.isHashable = true)
    (now : Float) :
    w.exit now (.int 0) =
      .ok { w.tick (.read now) with started := none, responsible := .str unattributed } := by
  simp [exit, Json.relate_int, hs, charge_eq hc, tick]
  rfl

end Stopwatch

namespace Run

variable {σ α : Type}

-- A computation that, inside a frame of a sound registry, changes the stopwatch only as a run of
-- ticks does: by making components responsible and by readings of the clock.
def Clocked (m : Run σ α) : Prop :=
  ∀ h : Host σ, h.registry.Sound → h.registry.depth ≠ 0 →
    ∃ ts, (m.exec h).2.registry.watch = h.registry.watch.play ts

variable {h : Host σ}

-- Closing the outermost frame, from depth one.
theorem exec_close_outer (hs : h.registry.Sound) (hd : h.registry.depth = 1) :
    (do
        modifyRegistry fun r => { r with depth := r.depth - 1 }
        closeFrame : Run σ Unit).exec h =
      (.ok (), { h with registry := { h.registry with
        depth := 0
        watch := { h.registry.watch.tick (.read h.clock) with
          started := none, responsible := .str unattributed } } }) := by
  obtain ⟨s, hst⟩ := Option.ne_none_iff_exists'.1 fun h' => by
    have := hs.running.2 h'
    omega
  simp [exec_bind, exec_modifyRegistry, closeFrame, exec_get, hd,
    Stopwatch.exit_zero_eq hst hs.chargeable]

end Run

namespace Visit

variable {σ : Type} {react : Run.Reaction σ} {n : Nat} {u : Text} {h : Host σ}
  {vs : List (Visit σ)}

-- Each visit is a run of the reaction from the host it started in.
theorem Chain.runs (hc : Chain react n u h vs) :
    ∀ v ∈ vs, (react v.listener u v.downstream).exec v.start = (v.outcome, v.finish) := by
  induction vs generalizing h with
  | nil => exact fun _ h => (by cases h)
  | cons v vs ih =>
    obtain ⟨-, hrun, hcs⟩ := hc
    intro w hw
    cases List.mem_cons.1 hw with
    | inl h => rw [h]; exact hrun
    | inr h => exact ih hcs w h

-- Each visit was told the component of its own call.
theorem Chain.responsible (hc : Chain react n u h vs) :
    ∀ v ∈ vs, v.start.registry.watch.responsible =
      Run.component v.start.registry.scheme v.listener v.downstream := by
  induction vs generalizing h with
  | nil => exact fun _ h => (by cases h)
  | cons v vs ih =>
    obtain ⟨hstart, -, hcs⟩ := hc
    intro w hw
    cases List.mem_cons.1 hw with
    | inl h => rw [h, hstart]; rfl
    | inr h => exact ih hcs w h

-- What visits do to the stopwatch: each makes the component of its call responsible, then runs
-- the ticks of its own call.
theorem Chain.watch {ticks : Visit σ → List Stopwatch.Tick} (hc : Chain react n u h vs)
    (hticks : ∀ v ∈ vs, v.finish.registry.watch = v.start.registry.watch.play (ticks v)) :
    (last h vs).registry.watch = h.registry.watch.play
      (vs.flatMap fun v => .tell v.start.registry.watch.responsible :: ticks v) := by
  induction vs generalizing h with
  | nil => rfl
  | cons v vs ih =>
    obtain ⟨hstart, -, hcs⟩ := hc
    have start : v.start.registry.watch =
        h.registry.watch.tick (.tell v.start.registry.watch.responsible) := by
      rw [hstart]; rfl
    rw [last_cons, ih hcs fun w hw => hticks w (List.mem_cons_of_mem _ hw), List.flatMap_cons,
      List.cons_append, Stopwatch.play_cons, Stopwatch.play_append, ← start,
      ← hticks v List.mem_cons_self]

-- With timed listeners, inside a frame, each visit runs ticks of its own.
theorem Chain.clocked (hk : ∀ l u d, Run.Keeps (react l u d))
    (hc : ∀ l u d, Run.Clocked (react l u d)) (hch : Chain react n u h vs)
    (hs : h.registry.Sound) (hd : h.registry.depth ≠ 0)
    (hkinds : ∀ v ∈ vs, v.downstream = none → v.listener.kind.isHashable = true) :
    ∃ ticks : Visit σ → List Stopwatch.Tick,
      ∀ v ∈ vs, v.finish.registry.watch = v.start.registry.watch.play (ticks v) := by
  refine choose_each (P := fun v ts => v.finish.registry.watch = v.start.registry.watch.play ts)
    fun v hv => ?_
  obtain ⟨sound, depth, -⟩ := (hch.kept hk hs hd hkinds).2 v hv
  obtain ⟨ts, hts⟩ := hc v.listener u v.downstream v.start sound (by rw [depth]; exact hd)
  rw [hch.runs v hv] at hts
  exact ⟨ts, hts⟩

end Visit

namespace Run

variable {σ : Type} {react : Reaction σ}

section Notify

variable (hk : ∀ l u d, Keeps (react l u d)) (hc : ∀ l u d, Clocked (react l u d))
include hk hc

-- A notification of timed listeners let in: its visits, the ticks each one's call runs, and
-- the stopwatch its last visit leaves, before the frame closes.
theorem exec_notify_ticks (h : Host σ) (hs : h.registry.Sound) {v : Json} {u : Text}
    (hv : h.registry.scheme.requireValid v "upstream" = .ok u)
    (ha : h.registry.admitsAt h.registry.depth) :
    let h₁ : Host σ := { h with registry := { h.registry with
      count := h.registry.count + 1
      depth := h.registry.depth + 1
      watch := h.registry.watch.tick (.read h.clock) } }
    ∃ (vs : List (Visit σ)) (ticks : Visit σ → List Stopwatch.Tick),
      Visit.Chain react (h.registry.count + 1) u h₁ vs ∧
      (∀ w ∈ vs, w.finish.registry.watch = w.start.registry.watch.play (ticks w)) ∧
      (Visit.last h₁ vs).registry.Sound ∧
      (Visit.last h₁ vs).registry.depth = h.registry.depth + 1 ∧
      (Visit.last h₁ vs).registry.watch = (h.registry.watch.tick (.read h.clock)).play
        (vs.flatMap fun w => .tell (component h.registry.scheme w.listener w.downstream) :: ticks w) ∧
      ((notify react v).exec h).2 = ((do
        modifyRegistry fun r => { r with depth := r.depth - 1 }
        closeFrame : Run σ Unit).exec (Visit.last h₁ vs)).2 := by
  intro h₁
  obtain ⟨w, hw, hs₁, vs₁, vs₂, vs₃, chain, chargeable, -, -, -, hfin⟩ := visits_notify hk h hs hv ha
  rw [Stopwatch.enter_eq hs.chargeable] at hw
  cases hw
  obtain ⟨ticks, hticks⟩ := chain.clocked hk hc hs₁ (by simp) chargeable
  obtain ⟨kept, visits⟩ := chain.kept hk hs₁ (by simp) chargeable
  -- each visit was told the component of its call, under the scheme the notification started with
  have tells : ∀ w ∈ vs₁ ++ vs₂ ++ vs₃, (Stopwatch.Tick.tell w.start.registry.watch.responsible ::
      ticks w) = .tell (component h.registry.scheme w.listener w.downstream) :: ticks w := by
    intro w hw
    rw [chain.responsible w hw, (visits w hw).2.2]
  have last := chain.watch hticks
  rw [List.flatMap_congr tells] at last
  exact ⟨vs₁ ++ vs₂ ++ vs₃, ticks, chain, hticks, kept.sound, kept.depth, last, hfin⟩

-- A notification of timed listeners, from a sound registry. Refused, it changes nothing. Let in,
-- it reads the clock as its frame opens, then makes its visits one after the other: each makes
-- the component of its call responsible and runs the ticks of its own call, among them the
-- readings of notifications nested in it. Nested, it leaves the stopwatch running from its last
-- reading. Outermost, it reads the clock once more as it closes: each span between two readings
-- is charged to the component responsible at its end, nothing else is charged, and the stopwatch
-- stops with no component responsible. In exact arithmetic the spans add up to the time from the
-- first reading to the last, and none is negative when the clock never goes back.
theorem notify_charges_time_of_clocked (h : Host σ) (hs : h.registry.Sound) (v : Json) :
    let p := (notify react v).exec h
    ((¬∃ u, h.registry.scheme.requireValid v "upstream" = .ok u ∧
        h.registry.admitsAt h.registry.depth) → p.2 = h) ∧
    ∀ u, h.registry.scheme.requireValid v "upstream" = .ok u →
      h.registry.admitsAt h.registry.depth →
      ∃ (vs : List (Visit σ)) (ticks : Visit σ → List Stopwatch.Tick),
        Visit.Chain react (h.registry.count + 1) u
          { h with registry := { h.registry with
            count := h.registry.count + 1
            depth := h.registry.depth + 1
            watch := h.registry.watch.tick (.read h.clock) } } vs ∧
        (∀ w ∈ vs, w.finish.registry.watch = w.start.registry.watch.play (ticks w)) ∧
        let told := vs.flatMap fun w =>
          .tell (component h.registry.scheme w.listener w.downstream) :: ticks w
        (h.registry.depth ≠ 0 →
          p.2.registry.watch = h.registry.watch.play (.read h.clock :: told)) ∧
        (h.registry.depth = 0 →
          let sp := Stopwatch.spans (.str unattributed) h.clock (told ++ [.read p.2.clock])
          p.2.registry.watch = ⟨Stopwatch.creditAll h.registry.watch.totals sp, none,
            .str unattributed⟩ ∧
          ∀ val : Float → ℚ,
            (sp.map fun s => val s.stop - val s.start).sum = val p.2.clock - val h.clock ∧
            ((h.clock :: Stopwatch.reads told ++ [p.2.clock]).IsChain (fun a b => val a ≤ val b) →
              ∀ s ∈ sp, 0 ≤ val s.stop - val s.start)) := by
  intro p
  refine ⟨fun refused => ?_, fun u hv ha => ?_⟩
  · obtain ⟨f, hf⟩ := exec_notify_refused react refused
    show ((notify react v).exec h).2 = h
    rw [hf]
  obtain ⟨vs, ticks, chain, hticks, sound, depth, last, hfin⟩ := exec_notify_ticks hk hc h hs hv ha
  refine ⟨vs, ticks, chain, hticks, fun hd => ?_, fun h0 => ?_⟩
  · -- nested: closing the frame leaves the stopwatch as the visits left it
    obtain ⟨w', hclose, inner, -⟩ := exec_close sound depth
    show ((notify react v).exec h).2.registry.watch = _
    rw [hfin, hclose]
    exact (inner hd).trans last
  · -- outermost: the stopwatch was stopped, with no component responsible
    have idle : h.registry.watch.started = none := hs.running.1 h0
    have nobody : h.registry.watch.responsible = .str unattributed := hs.idle h0
    have close := exec_close_outer sound (by rw [depth, h0])
    generalize hl : Visit.last _ vs = hlast at sound depth last hfin close
    have clock : p.2.clock = hlast.clock := by
      show ((notify react v).exec h).2.clock = _
      rw [hfin, close]
    have watch : p.2.registry.watch = { hlast.registry.watch.tick (.read p.2.clock) with
        started := none, responsible := .str unattributed } := by
      rw [clock]
      show ((notify react v).exec h).2.registry.watch = _
      rw [hfin, close]
    have started : (h.registry.watch.tick (.read h.clock)).started = some h.clock := by
      simp [Stopwatch.tick, idle]
    intro sp
    refine ⟨?_, fun val => ⟨?_, fun hmono => ?_⟩⟩
    · -- the last reading closes the last span
      rw [watch, last, Stopwatch.play_concat, Stopwatch.play_eq started]
      simp only [Stopwatch.tick, idle, nobody]
      rfl
    · rw [Stopwatch.sum_spans, Stopwatch.lastRead_append_read]
    · refine Stopwatch.spans_nonneg val _ _ _ ?_
      rwa [Stopwatch.reads_append, Stopwatch.reads_read, Stopwatch.reads]

-- A notification made from inside a timed listener is timed too: nested notifications compose.
theorem clocked_notify (v : Json) : Clocked (notify react v) := by
  intro h hs hd
  by_cases entered : ∃ u, h.registry.scheme.requireValid v "upstream" = .ok u ∧
      h.registry.admitsAt h.registry.depth
  · obtain ⟨u, hv, ha⟩ := entered
    obtain ⟨vs, ticks, -, -, sound, depth, last, hfin⟩ := exec_notify_ticks hk hc h hs hv ha
    obtain ⟨w', hclose, inner, -⟩ := exec_close sound depth
    refine ⟨.read h.clock :: vs.flatMap fun w =>
      .tell (component h.registry.scheme w.listener w.downstream) :: ticks w, ?_⟩
    rw [hfin, hclose]
    exact (inner hd).trans last
  · obtain ⟨f, hf⟩ := exec_notify_refused react entered
    exact ⟨[], by rw [hf]; rfl⟩

end Notify

end Run

end Invalidation
