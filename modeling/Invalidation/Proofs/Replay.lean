import Invalidation.Proofs.Twins
import Invalidation.Script.Play

namespace Invalidation.Script

open Run

-- Whether a command shows the trace level.
def Command.readsTrace : Command → Bool
  | .state | .report _ => true
  | _ => false

-- Whether a command reads or changes the journal.
def Command.usesJournal : Command → Bool
  | .logQuery .. | .logRecent _ | .logLength | .logDict | .logClear => true
  | _ => false

-- Results of a command alike: the same, or two documents, neither null, from a command that shows
-- the trace level.
def Command.Answers (c : Command) (r₁ r₂ : Json) : Prop :=
  r₁ = r₂ ∨ c.readsTrace = true ∧ (r₁ matches .null) = false ∧ (r₂ matches .null) = false

-- A step that shows the trace level.
def Shows (step : Json) : Prop := ∃ c, Command.ofJson step = .ok c ∧ c.readsTrace = true

-- A step that needs no journal.
def Plain (step : Json) : Prop := ∀ c, Command.ofJson step = .ok c → c.usesJournal = false

-- Results of a step alike.
def Answered (step : Json) (r₁ r₂ : Json) : Prop :=
  r₁ = r₂ ∨ Shows step ∧ (r₁ matches .null) = false ∧ (r₂ matches .null) = false

-- Two notes alike: the same, or notes of the results of one step that shows the trace level.
def Note.Twin (n₁ n₂ : Json) : Prop :=
  n₁ = n₂ ∨ ∃ name step r₁ r₂, Shows step ∧
    n₁ = .obj [("listener", name), ("op", step.field "op"), ("result", r₁)] ∧
    n₂ = .obj [("listener", name), ("op", step.field "op"), ("result", r₂)]

-- What scripted listeners keep, alike: the same firings, and notes alike one by one.
def Stage.Twin (s₁ s₂ : Stage) : Prop :=
  s₁.fired = s₂.fired ∧ List.Forall₂ Note.Twin s₁.notes.toList s₂.notes.toList

-- A cast whose actions need no journal, whatever call they are made for.
def Cast.Plain (cast : Cast) : Prop :=
  ∀ e ∈ cast, ∀ r ∈ e.2.rules, ∀ vs, Json.loopItems r.actions = .ok vs → ∀ v ∈ vs, ∀ u d a,
    Action.ofJson u d v = .ok a → Script.Plain a.step

theorem Cast.mem_of_actor? {cast : Cast} {l : Listener} {a : Actor} (h : cast.actor? l = some a) :
    ∃ e ∈ cast, e.2 = a := by
  simp only [Cast.actor?, Option.map_eq_some_iff] at h
  obtain ⟨e, he, rfl⟩ := h
  exact ⟨e, List.mem_of_find?_eq_some he, rfl⟩

section Twin

variable {p : Bool}

theorem twin_note {n₁ n₂ : Json} (hn : Note.Twin n₁ n₂) :
    Twin p Stage.Twin Eq (note n₁) (note n₂) := by
  intro h₁ h₂ ht hs
  refine ⟨rfl, ⟨ht.registry, ht.clock, ht.own.1, ?_⟩, hs⟩
  simpa [note] using List.rel_append ht.own.2 (.cons hn .nil)

theorem twin_firedCount (key : Nat × Nat) :
    Twin p Stage.Twin Eq (firedCount key) (firedCount key) := by
  intro h₁ h₂ ht hs
  simp only [firedCount, exec_bind, exec_get, exec_pure]
  rw [ht.own.1]
  exact ⟨rfl, ht, hs⟩

theorem twin_countFiring (key : Nat × Nat) :
    Twin p Stage.Twin Eq (countFiring key) (countFiring key) := by
  refine twin_bind (twin_firedCount key) fun n₁ n₂ hn => ?_
  subst hn
  intro h₁ h₂ ht hs
  simp only [exec_modify]
  refine ⟨rfl, ⟨ht.registry, ht.clock, ?_, ht.own.2⟩, hs⟩
  simp only [ht.own.1]

-- Journals in twins with journals paired are the same journal, or none on both sides.
theorem twin_journal (hp : p = true) :
    Twin p Stage.Twin Eq journal journal := by
  intro h₁ h₂ ht hs
  have attached := ht.registry.attached hp
  simp only [journal, exec_bind, exec_registry]
  cases hj₁ : h₁.registry.journal with
  | none =>
    cases hj₂ : h₂.registry.journal with
    | none => exact ⟨rfl, ht, hs⟩
    | some j₂ => simp [hj₁, hj₂] at attached
  | some j₁ =>
    cases hj₂ : h₂.registry.journal with
    | none => simp [hj₁, hj₂] at attached
    | some j₂ =>
      rw [ht.registry.journal j₁ hj₁ j₂ hj₂]
      exact ⟨rfl, ht, hs⟩

theorem twin_journal_bind {β : Type} {S : β → β → Prop} {f : Journal → Play β} (hp : p = true)
    (hf : ∀ j, Twin p Stage.Twin S (f j) (f j)) :
    Twin p Stage.Twin S (journal >>= f) (journal >>= f) :=
  twin_bind (twin_journal hp) fun j₁ j₂ hj => by
    subst hj
    exact hf j₁

-- The listener a command names depends on the cast alone.
theorem twin_resolve (cast : Cast) (who : Json) :
    Twin p Stage.Twin Eq (resolve cast who) (resolve cast who) := by
  unfold resolve
  split
  · exact twin_pure rfl
  · split
    · exact twin_throw _
    · split
      · exact twin_pure rfl
      · exact twin_throw _

theorem twin_logSome (o : Option LogLine) :
    Twin p Stage.Twin Eq (logSome o) (logSome o) := by
  cases o with
  | none => exact twin_pure rfl
  | some l => exact twin_log l

-- A change of the graph computed from what twins share.
theorem twin_changeGraph {f : Registry → Except Fault Graph}
    (hf : ∀ r₁ r₂, Registry.Twin p r₁ r₂ → f r₁ = f r₂) :
    Twin p Stage.Twin Eq (changeGraph f) (changeGraph f) := by
  unfold changeGraph
  refine twin_bind twin_registry fun r₁ r₂ hr => ?_
  rw [hf r₁ r₂ hr]
  refine twin_lift_bind fun g _ => ?_
  exact twin_bind (twin_keep (f := fun r => { r with graph := g }) (fun _ => rfl) (fun _ => rfl)
    (fun _ => rfl)) fun _ _ _ => twin_pure rfl

-- A trace level that passes its check is a number.
theorem traced_of_checkTrace {a : Json} (h : Registry.checkTrace a = .ok ()) :
    a.number?.isSome := by
  unfold Registry.checkTrace at h
  cases hr : Json.relate .lt a (.int 0) with
  | error f => simp [hr, bind, Except.bind] at h
  | ok b => exact Json.number_of_relate_int hr

-- A report of twin registries: both fail alike, or both give a document.
theorem report_twin {r₁ r₂ : Registry} (hr : Registry.Twin p r₁ r₂) (withEdges : Bool) :
    Alike (fun v₁ v₂ : Json => (v₁ matches .null) = false ∧ (v₂ matches .null) = false)
      (r₁.report withEdges) (r₂.report withEdges) := by
  -- the trace level is checked alike, and everything else is shared; only the level shown differs
  have checked : (Report.integerFrom 0 r₁.trace).map (fun _ => ()) =
      (Report.integerFrom 0 r₂.trace).map (fun _ => ()) := hr.checked
  simp only [Registry.report, hr.watch, hr.roster, hr.maxDepth, hr.graph, hr.depth, hr.count,
    checked]
  cases r₂.watch.sorted with
  | error f => rfl
  | ok l =>
    simp only [bind, Except.bind]
    cases List.mapM Report.timing l with
    | error f => rfl
    | ok ts =>
      simp only
      split
      · rfl
      · exact ⟨rfl, rfl⟩

-- Setting a trace level: its check, then the level, then a line of the registry.
theorem exec_setTrace (cast : Cast) (react : Reaction Stage) (level : Json) (h : Host Stage) :
    (perform cast react (.setTrace level)).exec h =
      match Registry.checkTrace level with
      | .error f => (.error f, h)
      | .ok () => (.ok .null, { h with
          registry := { h.registry with trace := level }
          logs := h.logs.push ⟨.info, .registry,
            Text.ofString "Metadata notification trace level set to " ++ level.display⟩ }) := by
  simp only [perform, exec_bind, exec_lift]
  cases Registry.checkTrace level <;> rfl

-- Twins set to trace levels that pass their check and that a report checks alike stay twins.
theorem twin_setTrace {cast : Cast} {react : Reaction Stage} {a b : Json}
    (ha : Registry.checkTrace a = .ok ()) (hb : Registry.checkTrace b = .ok ())
    (hab : Registry.traceCheck a = Registry.traceCheck b) {h₁ h₂ : Host Stage}
    (ht : Host.Twin p Stage.Twin h₁ h₂) :
    ((perform cast react (.setTrace a)).exec h₁).1 = .ok .null ∧
      ((perform cast react (.setTrace b)).exec h₂).1 = .ok .null ∧
      Host.Twin p Stage.Twin ((perform cast react (.setTrace a)).exec h₁).2
        ((perform cast react (.setTrace b)).exec h₂).2 := by
  rw [exec_setTrace, exec_setTrace, ha, hb]
  exact ⟨rfl, rfl, ⟨ht.registry.setTrace (traced_of_checkTrace ha) (traced_of_checkTrace hb) hab,
    ht.clock, ht.own⟩⟩

-- Moving the clock reads the clock alone.
theorem twin_advance (cast : Cast) (react : Reaction Stage) (s : Json) :
    Twin p Stage.Twin Eq (perform cast react (.advance s)) (perform cast react (.advance s)) := by
  intro h₁ h₂ ht hs
  simp only [perform, exec_bind, exec_get, exec_lift]
  rw [ht.clock]
  cases Json.addToFloat h₂.clock s with
  | error f => exact ⟨rfl, ht, hs⟩
  | ok c => exact ⟨rfl, ⟨ht.registry, rfl, ht.own⟩, hs⟩

-- A change of the listeners computed from what twins share, with the line it logs.
theorem twin_changeRoster {l : Option Listener}
    {f : Roster → Option Listener → Except Fault (Roster × Option LogLine)} :
    Twin p Stage.Twin Eq
      (do
        let (ro, line) ← lift (f (← registry).roster l)
        modifyRegistry fun r => { r with roster := ro }
        logSome line
        pure Json.null)
      (do
        let (ro, line) ← lift (f (← registry).roster l)
        modifyRegistry fun r => { r with roster := ro }
        logSome line
        pure Json.null) := by
  refine twin_bind twin_registry fun r₁ r₂ hr => ?_
  rw [hr.roster]
  refine twin_lift_bind fun ⟨ro, line⟩ _ => ?_
  exact twin_bind (twin_keep (f := fun r => { r with roster := ro }) (fun _ => rfl) (fun _ => rfl)
    (fun _ => rfl)) fun _ _ _ =>
      twin_bind (twin_logSome line) fun _ _ _ => twin_pure rfl

-- Every command plays alike on twins, the journal commands when the journals are paired.
theorem twin_perform (cast : Cast) {react : Reaction Stage}
    (hr : ∀ l u d, Twin p Stage.Twin Eq (react l u d) (react l u d)) (c : Command)
    (hc : c.usesJournal = true → p = true) :
    Twin p Stage.Twin c.Answers (perform cast react c) (perform cast react c) := by
  -- a command that does not show the trace level gives the same result on both sides
  have same : ∀ {m : Run Stage Json}, Twin p Stage.Twin Eq m m → Twin p Stage.Twin c.Answers m m :=
    fun h => h.mono fun _ _ h => .inl h
  -- a change of the registry that keeps the trace level and the journal, and no result
  have modify : ∀ f : Registry → Registry, (∀ r, (f r).bare = f r.bare) →
      (∀ r, (f r).trace = r.trace) → (∀ r, (f r).journal = r.journal) →
      Twin p Stage.Twin c.Answers (modifyRegistry f >>= fun _ => pure .null)
        (modifyRegistry f >>= fun _ => pure .null) :=
    fun _ hb ht hj => same (twin_bind (twin_keep hb ht hj) fun _ _ _ => twin_pure rfl)
  cases c with
  | register u d => exact same (twin_changeGraph fun _ _ h => by rw [h.graph, h.scheme])
  | deregister u d => exact same (twin_changeGraph fun _ _ h => by rw [h.graph, h.scheme])
  | deregisterAll d =>
    refine same (twin_bind twin_registry fun r₁ r₂ h => ?_)
    rw [h.graph, h.scheme]
    refine twin_lift_bind fun ⟨g, line⟩ _ => ?_
    exact twin_bind (twin_keep (f := fun r => { r with graph := g }) (fun _ => rfl) (fun _ => rfl)
      (fun _ => rfl)) fun _ _ _ =>
        twin_bind (twin_logSome line) fun _ _ _ => twin_pure rfl
  | isValid u d | downstream u | dependencies u | allDownstream u | allDependencies u =>
    exact same (twin_compute fun _ _ h => by rw [h.graph, h.scheme])
  | has u d => exact same (twin_compute fun _ _ h => by rw [h.graph])
  | contains u d form =>
    cases form with
    | other => exact same (twin_pure rfl)
    | pair | edge => exact same (twin_compute fun _ _ h => by rw [h.graph])
  | edges | identifiers | size | graphDict => exact same (twin_read fun _ _ h => by rw [h.graph])
  | clear => exact modify _ (fun _ => rfl) (fun _ => rfl) (fun _ => rfl)
  | notify u => exact same (twin_bind (twin_notify hr u) fun _ _ _ => twin_pure rfl)
  | addListener who | removeListener who =>
    exact same (twin_bind (twin_resolve cast who) fun l₁ l₂ hl => by
      subst hl
      exact twin_changeRoster)
  | listeners | listenerCount => exact same (twin_read fun _ _ h => by rw [h.roster])
  | setTrace level =>
    -- the same level on both sides: twins again, with the same line logged
    intro h₁ h₂ ht hs
    rw [exec_setTrace, exec_setTrace]
    rcases hchk : Registry.checkTrace level with f | ⟨⟩
    · exact ⟨rfl, ht, hs⟩
    · refine ⟨.inl rfl, ⟨ht.registry.setTrace (traced_of_checkTrace hchk)
        (traced_of_checkTrace hchk) rfl, ht.clock, ht.own⟩, ?_⟩
      simp only [Host.SameLog, Array.toList_push, List.filter_append] at hs ⊢
      rw [hs]
  | advance s => exact same (twin_advance cast react s)
  | timings => exact same (twin_compute fun _ _ h => by rw [h.watch])
  | totalSeconds | responsible => exact same (twin_read fun _ _ h => by rw [h.watch])
  | resetTimings => exact modify _ (fun _ => rfl) (fun _ => rfl) (fun _ => rfl)
  | state => exact twin_bind twin_registry fun _ _ _ => twin_pure (.inr ⟨rfl, rfl, rfl⟩)
  | report withEdges =>
    exact twin_bind twin_registry fun r₁ r₂ h =>
      twin_lift_alike ((report_twin h withEdges).imp fun _ _ h => .inr ⟨rfl, h⟩)
  | logQuery u d phases n limit =>
    exact same (twin_journal_bind (hc rfl) fun _ =>
      twin_lift_bind fun _ _ => twin_lift_bind fun _ _ => twin_pure rfl)
  | logRecent n =>
    refine same (twin_journal_bind (hc rfl) fun _ => ?_)
    split
    · exact twin_pure rfl
    · exact twin_journal_bind (hc rfl) fun _ => twin_pure rfl
    · exact twin_bind (R := Eq) (twin_throw _) fun es₁ es₂ hes => by
        subst hes
        exact twin_pure rfl
  | logLength | logDict => exact same (twin_journal_bind (hc rfl) fun _ => twin_pure rfl)
  | logClear =>
    exact same (twin_journal_bind (hc rfl) fun j =>
      twin_bind (twin_modifyRegistry fun _ _ h => h.setJournal j.clear) fun _ _ _ => twin_pure rfl)
  | fail m => exact twin_throw _

-- The actions of a firing rule play alike when their steps do.
theorem twin_runActions {exec : Json → Play Json} (a : Actor) (u : Text) (d : Option Text)
    (hexec : ∀ step, Script.Plain step ∨ p = true →
      Twin p Stage.Twin (Answered step) (exec step) (exec step)) :
    ∀ vs : List Json, (∀ v ∈ vs, ∀ act, Action.ofJson u d v = .ok act →
        Script.Plain act.step ∨ p = true) →
      Twin p Stage.Twin Eq (runActions exec a u d vs) (runActions exec a u d vs)
  | [], _ => twin_pure rfl
  | v :: vs, hvs => by
    simp only [runActions]
    refine twin_lift_bind fun act hact => ?_
    have rest := twin_runActions a u d hexec vs fun w hw => hvs w (List.mem_cons_of_mem _ hw)
    refine twin_bind (R := Eq) (twin_tryCatch (R := Eq)
      (twin_bind (S := Eq) (hexec act.step (hvs v List.mem_cons_self act hact)) fun r₁ r₂ hr => ?_)
      fun f => ?_) fun _ _ _ => rest
    · -- a result is noted unless null; the results of a step that shows the trace level are not
      rcases hr with rfl | ⟨shows, null₁, null₂⟩
      · split
        · exact twin_pure rfl
        · exact twin_note (.inl rfl)
      · cases r₁ with
        | null => simp at null₁
        | _ => cases r₂ with
          | null => simp at null₂
          | _ => exact twin_note (.inr ⟨a.name, act.step, _, _, shows, rfl, rfl⟩)
    · split
      · exact twin_note (.inl rfl)
      · exact twin_throw f

-- The rules of a listener play alike when the steps of their actions do.
theorem twin_runRules {exec : Json → Play Json} (a : Actor) (u : Text) (d : Option Text)
    (hexec : ∀ step, Script.Plain step ∨ p = true →
      Twin p Stage.Twin (Answered step) (exec step) (exec step)) :
    ∀ (i : Nat) (rs : List Rule), (∀ r ∈ rs, ∀ vs, Json.loopItems r.actions = .ok vs → ∀ v ∈ vs,
        ∀ act, Action.ofJson u d v = .ok act → Script.Plain act.step ∨ p = true) →
      Twin p Stage.Twin Eq (runRules exec a u d i rs) (runRules exec a u d i rs)
  | _, [], _ => twin_pure rfl
  | i, r :: rs, hrs => by
    simp only [runRules]
    have rest :=
      twin_runRules a u d hexec (i + 1) rs fun r' hr => hrs r' (List.mem_cons_of_mem _ hr)
    refine twin_bind (twin_firedCount _) fun n₁ n₂ hn => ?_
    subst hn
    refine twin_lift_bind fun b _ => ?_
    cases b
    · simp only [Bool.false_eq_true, ite_false]
      exact rest
    · simp only [ite_true]
      refine twin_bind (twin_countFiring _) fun _ _ _ => twin_lift_bind fun vs hvs => ?_
      exact twin_bind (twin_runActions a u d hexec vs (hrs r List.mem_cons_self vs hvs))
        fun _ _ _ => rest

theorem twin_play (cast : Cast) (hcast : cast.Plain ∨ p = true) : ∀ n,
    (∀ l u d, Twin p Stage.Twin Eq (react cast n l u d) (react cast n l u d)) ∧
    ∀ step, Script.Plain step ∨ p = true →
      Twin p Stage.Twin (Answered step) (exec cast n step) (exec cast n step)
  | 0 => ⟨fun _ _ _ => twin_throw _, fun _ _ => twin_throw _⟩
  | n + 1 => by
    obtain ⟨hreact, hexec⟩ := twin_play cast hcast n
    refine ⟨fun l u d => ?_, fun step hstep => ?_⟩
    · simp only [react]
      cases ha : cast.actor? l with
      | none => exact twin_pure rfl
      | some a =>
        refine twin_bind twin_registry fun r₁ r₂ hreg => ?_
        rw [hreg.depth]
        refine twin_bind (twin_note (.inl rfl)) fun _ _ _ => ?_
        split
        · exact twin_pure rfl
        · -- the actions of the script's listeners need no journal, or both runs have one
          refine twin_runRules a u d hexec 0 a.rules fun r hr vs hvs v hv act hact => ?_
          refine hcast.imp (fun plain => ?_) id
          obtain ⟨e, he, rfl⟩ := Cast.mem_of_actor? ha
          exact plain e he r hr vs hvs v hv u d act hact
    · simp only [exec]
      refine twin_lift_bind fun c hc => ?_
      have journal : c.usesJournal = true → p = true := fun hj =>
        hstep.elim (fun plain => absurd (plain c hc) (by simp [hj])) id
      refine (twin_perform cast (hreact) c journal).mono fun r₁ r₂ hr => ?_
      exact hr.imp_right fun ⟨shows, null₁, null₂⟩ => ⟨⟨c, hc, shows⟩, null₁, null₂⟩

end Twin

-- A step as a script plays it: its outcome, with a fault of the request itself passed on.
def attempt (cast : Cast) (step : Json) : Play (Except Fault Json) :=
  tryCatch (Except.ok <$> exec cast allowance step) fun f =>
    match f with
    | .badRequest _ => throw f
    | _ => pure (.error f)

theorem runSteps_cons (cast : Cast) (step : Json) (steps : List Json) :
    runSteps cast (step :: steps) = (do
      modify fun h => { h with logs := #[], own := { h.own with notes := #[] } }
      let r ← attempt cast step
      let h ← get
      let rest ← runSteps cast steps
      pure (answerOf r h :: rest)) := rfl

theorem exec_allowance (cast : Cast) (step : Json) :
    exec cast allowance step =
      lift (Command.ofJson step) >>= perform cast (react cast (allowance - 1)) := rfl

-- Two steps of replays alike: the same step, or settings of trace levels that pass their check and
-- that a report checks alike.
def Step.Twin (s₁ s₂ : Json) : Prop :=
  s₁ = s₂ ∨ ∃ a b, Command.ofJson s₁ = .ok (.setTrace a) ∧ Command.ofJson s₂ = .ok (.setTrace b) ∧
    Registry.checkTrace a = .ok () ∧ Registry.checkTrace b = .ok () ∧
    Registry.traceCheck a = Registry.traceCheck b

-- Answers to twin steps alike. Each answer is made from an outcome and the host the step left, and
-- the notes of the two hosts are alike: the same calls, and the same notes but of the results of
-- steps that show the trace level. For the same step the outcomes are alike and so are the lines
-- logged, but for the dispatcher's; two settings of the trace level both succeed.
def Answer.Twin (s₁ s₂ a₁ a₂ : Json) : Prop :=
  ∃ (o₁ o₂ : Except Fault Json) (k₁ k₂ : Host Stage),
    a₁ = answerOf o₁ k₁ ∧ a₂ = answerOf o₂ k₂ ∧ Stage.Twin k₁.own k₂.own ∧
    (s₁ = s₂ ∧ Alike (Answered s₁) o₁ o₂ ∧ Host.SameLog k₁ k₂ ∨ o₁ = .ok .null ∧ o₂ = .ok .null)

-- The answers to two replays, alike step by step.
inductive Replies : List Json → List Json → List Json → List Json → Prop
  | nil : Replies [] [] [] []
  | cons {s₁ s₂ a₁ a₂ : Json} {ss₁ ss₂ as₁ as₂ : List Json} :
      Answer.Twin s₁ s₂ a₁ a₂ → Replies ss₁ ss₂ as₁ as₂ →
      Replies (s₁ :: ss₁) (s₂ :: ss₂) (a₁ :: as₁) (a₂ :: as₂)

section Replay

variable {p : Bool} (cast : Cast) (hcast : cast.Plain ∨ p = true)
include hcast

-- The same step played on twins: a fault of the request passes on alike, and any other becomes
-- the step's outcome.
theorem twin_attempt {s : Json} (hs : Script.Plain s ∨ p = true) :
    Twin p Stage.Twin (Alike (Answered s)) (attempt cast s) (attempt cast s) := by
  unfold attempt
  refine twin_tryCatch ?_ fun f => ?_
  · rw [← bind_pure_comp]
    exact twin_bind ((twin_play cast hcast allowance).2 s hs) fun _ _ hr => twin_pure hr
  · split
    · exact twin_throw _
    · exact twin_pure rfl

omit hcast in
-- Two settings of trace levels that pass their check leave twins, both done.
theorem twin_attempt_setTrace {s₁ s₂ a b : Json} (hs₁ : Command.ofJson s₁ = .ok (.setTrace a))
    (hs₂ : Command.ofJson s₂ = .ok (.setTrace b)) (ha : Registry.checkTrace a = .ok ())
    (hb : Registry.checkTrace b = .ok ()) (hab : Registry.traceCheck a = Registry.traceCheck b)
    {h₁ h₂ : Host Stage} (ht : Host.Twin p Stage.Twin h₁ h₂) :
    ((attempt cast s₁).exec h₁).1 = .ok (.ok .null) ∧
      ((attempt cast s₂).exec h₂).1 = .ok (.ok .null) ∧
      Host.Twin p Stage.Twin ((attempt cast s₁).exec h₁).2 ((attempt cast s₂).exec h₂).2 := by
  obtain ⟨done₁, done₂, twin⟩ :=
    @twin_setTrace _ cast (react cast (allowance - 1)) _ _ ha hb hab _ _ ht
  simp only [attempt, exec_tryCatch, exec_map, exec_allowance, exec_bind, exec_lift, hs₁, hs₂]
  rcases hq₁ : (perform cast (react cast (allowance - 1)) (.setTrace a)).exec h₁ with ⟨o₁, k₁⟩
  rcases hq₂ : (perform cast (react cast (allowance - 1)) (.setTrace b)).exec h₂ with ⟨o₂, k₂⟩
  rw [hq₁, hq₂] at twin
  rw [hq₁] at done₁
  rw [hq₂] at done₂
  subst done₁ done₂
  exact ⟨rfl, rfl, twin⟩

-- Twin steps played on twins whose logs are alike.
theorem twin_attempt_step {s₁ s₂ : Json} (hs : Step.Twin s₁ s₂)
    (hplain : Script.Plain s₁ ∨ p = true) {h₁ h₂ : Host Stage}
    (ht : Host.Twin p Stage.Twin h₁ h₂) (hl : Host.SameLog h₁ h₂) :
    Host.Twin p Stage.Twin ((attempt cast s₁).exec h₁).2 ((attempt cast s₂).exec h₂).2 ∧
      (s₁ = s₂ ∧
          Alike (Alike (Answered s₁)) ((attempt cast s₁).exec h₁).1 ((attempt cast s₂).exec h₂).1 ∧
          Host.SameLog ((attempt cast s₁).exec h₁).2 ((attempt cast s₂).exec h₂).2 ∨
        ((attempt cast s₁).exec h₁).1 = .ok (.ok .null) ∧
          ((attempt cast s₂).exec h₂).1 = .ok (.ok .null)) := by
  rcases hs with rfl | ⟨a, b, hs₁, hs₂, ha, hb, hab⟩
  · obtain ⟨alike, twin, log⟩ := twin_attempt cast hcast hplain h₁ h₂ ht hl
    exact ⟨twin, .inl ⟨rfl, alike, log⟩⟩
  · obtain ⟨done₁, done₂, twin⟩ := twin_attempt_setTrace cast hs₁ hs₂ ha hb hab ht
    exact ⟨twin, .inr ⟨done₁, done₂⟩⟩

theorem replay_answers_alike_on_twins {steps₁ steps₂ : List Json}
    (hs : List.Forall₂ Step.Twin steps₁ steps₂)
    (hplain : ∀ s ∈ steps₁, Script.Plain s ∨ p = true) {h₁ h₂ : Host Stage}
    (ht : Host.Twin p Stage.Twin h₁ h₂) :
    Alike (Replies steps₁ steps₂)
        ((runSteps cast steps₁).exec h₁).1 ((runSteps cast steps₂).exec h₂).1 ∧
      Host.Twin p Stage.Twin ((runSteps cast steps₁).exec h₁).2
        ((runSteps cast steps₂).exec h₂).2 := by
  induction hs generalizing h₁ h₂ with
  | nil => exact ⟨Replies.nil, ht⟩
  | @cons s₁ s₂ ss₁ ss₂ hst _ ih =>
    -- each step starts with no lines logged and no notes taken, so its logs start alike
    have cleared : Host.Twin p Stage.Twin
        { h₁ with logs := #[], own := { h₁.own with notes := #[] } }
        { h₂ with logs := #[], own := { h₂.own with notes := #[] } } :=
      ⟨ht.registry, ht.clock, ht.own.1, .nil⟩
    obtain ⟨twin, step⟩ :=
      twin_attempt_step cast hcast hst (hplain s₁ List.mem_cons_self) cleared rfl
    have rest := fun {k₁ k₂ : Host Stage} (hk : Host.Twin p Stage.Twin k₁ k₂) =>
      ih (fun s hs => hplain s (List.mem_cons_of_mem _ hs)) hk
    rw [runSteps_cons, runSteps_cons]
    simp only [exec_bind, exec_modify, exec_get, exec_pure]
    rcases hq₁ : (attempt cast s₁).exec { h₁ with logs := #[], own := { h₁.own with notes := #[] } }
      with ⟨o₁, k₁⟩
    rcases hq₂ : (attempt cast s₂).exec { h₂ with logs := #[], own := { h₂.own with notes := #[] } }
      with ⟨o₂, k₂⟩
    rw [hq₁, hq₂] at twin step
    simp only at twin step
    -- the step fails alike on both sides, or both sides answer it alike
    have answered :
        Alike (fun r₁ r₂ => Answer.Twin s₁ s₂ (answerOf r₁ k₁) (answerOf r₂ k₂)) o₁ o₂ := by
      rcases step with ⟨same, alike, log⟩ | ⟨rfl, rfl⟩
      · exact alike.imp fun r₁ r₂ hr =>
          ⟨r₁, r₂, k₁, k₂, rfl, rfl, twin.own, .inl ⟨same, hr, log⟩⟩
      · exact ⟨.ok .null, .ok .null, k₁, k₂, rfl, rfl, twin.own, .inr ⟨rfl, rfl⟩⟩
    obtain ⟨alike, final⟩ := rest twin
    rcases o₁ with f₁ | r₁ <;> rcases o₂ with f₂ | r₂
    · exact ⟨answered, twin⟩
    · exact answered.elim
    · exact answered.elim
    · -- both steps answered: the rest of the replays goes on alike
      simp only
      rcases hr₁ : (runSteps cast ss₁).exec k₁ with ⟨g₁ | as₁, l₁⟩ <;>
        rcases hr₂ : (runSteps cast ss₂).exec k₂ with ⟨g₂ | as₂, l₂⟩ <;>
        rw [hr₁, hr₂] at alike final
      · exact ⟨alike, final⟩
      · exact alike.elim
      · exact alike.elim
      · exact ⟨.cons answered alike, final⟩

end Replay

-- A script of one listener, the primary consumer, that asks for a report whenever it is called.
def reportingCast : Cast :=
  [(.str "p", ⟨⟨0, .str "p", true⟩, .str "p", false,
    [⟨none, none, none, .arr [.obj [("op", .str "report")]]⟩]⟩)]

theorem replay_answers_alike_at_levels :
    let host (level : Json) : Host Stage :=
      ⟨⟨.standard, (Graph.empty.link "MID:a" "MID:b").link "MID:a" "MID:c",
        ⟨some ⟨0, .str "p", true⟩, []⟩, .new, none, some (.int 256), level, 0, 0⟩,
        100.0, #[], ⟨[], #[]⟩⟩
    let notify : Json := .obj [("op", .str "notify"), ("id", .str "MID:a")]
    let steps₁ := [.obj [("op", .str "set_trace"), ("level", .int 1)], notify]
    let steps₂ := [.obj [("op", .str "set_trace"), ("level", .int 2)], notify]
    List.Forall₂ Step.Twin steps₁ steps₂ ∧
      Host.Twin true Stage.Twin (host (.int 0)) (host (.int 3)) ∧
      Alike (Replies steps₁ steps₂) ((runSteps reportingCast steps₁).exec (host (.int 0))).1
        ((runSteps reportingCast steps₂).exec (host (.int 3))).1 ∧
      Host.Twin true Stage.Twin ((runSteps reportingCast steps₁).exec (host (.int 0))).2
        ((runSteps reportingCast steps₂).exec (host (.int 3))).2 := by
  intro host notify steps₁ steps₂
  have hs : List.Forall₂ Step.Twin steps₁ steps₂ :=
    .cons (.inr ⟨.int 1, .int 2, rfl, rfl, rfl, rfl, rfl⟩) (.cons (.inl rfl) .nil)
  have ht : Host.Twin true Stage.Twin (host (.int 0)) (host (.int 3)) :=
    ⟨⟨rfl, rfl, rfl, rfl, by simp [host], fun _ => rfl⟩, rfl, rfl, .nil⟩
  exact ⟨hs, ht, replay_answers_alike_on_twins reportingCast (.inr rfl) hs (fun _ _ => .inr rfl) ht⟩

end Invalidation.Script
