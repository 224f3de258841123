import Invalidation.Proofs.Sound
import Mathlib

namespace Invalidation

-- A call made to a listener.
structure Call where
  listener : Listener
  changed : Text
  downstream : Option Text
  before : Registry
  outcome : Except Fault Unit
  after : Registry

namespace Call

variable {σ : Type}

-- The registry the last of `calls` left, or `r` when there are none.
def lastAfter (r : Registry) (calls : List Call) : Registry := calls.foldl (fun _ c => c.after) r

-- The downstream identifiers `calls` told about.
def told (calls : List Call) : List Text := calls.filterMap Call.downstream

-- What telling a listener writes before calling it: a journal record, and the component made
-- responsible, one that time can be charged to.
def Prepared (r r' : Registry) : Prop :=
  ∃ j c, c.isHashable = true ∧
    r' = { r with journal := j, watch := { r.watch with responsible := c } }

-- `c` is a call of `react`: run from a host on the registry `c` found, the reaction ended as `c`
-- did and left the registry `c` left.
def Runs (react : Run.Reaction σ) (c : Call) : Prop :=
  ∃ h : Host σ, h.registry = c.before ∧
    ((react c.listener c.changed c.downstream).exec h).1 = c.outcome ∧
    ((react c.listener c.changed c.downstream).exec h).2.registry = c.after

-- Calls of `react` that follow each other from registry `r`.
def Chain (react : Run.Reaction σ) : Registry → List Call → Prop
  | _, [] => True
  | r, c :: cs => Prepared r c.before ∧ Runs react c ∧ Chain react c.after cs

-- How a run that made `calls` ended with `res`.
def Ends {α : Type} (calls : List Call) (res : Except Fault α) : Prop :=
  (∀ c ∈ calls.dropLast, c.outcome = .ok ()) ∧
    ∀ c f, calls.getLast? = some c → c.outcome = .error f → res = .error f

-- The calls of a primary phase over `xs`, from registry `r`.
structure Told (u : Text) (xs : List Text) (r : Registry) (calls : List Call) : Prop where
  downstream : calls.map Call.downstream = (xs.take calls.length).map some
  changed : ∀ c ∈ calls, c.changed = u
  primary : ∀ c ∈ calls, c.before.roster.primary = some c.listener
  stop : (∀ c ∈ calls, c.outcome = .ok ()) → calls.length < xs.length →
    (lastAfter r calls).roster.primary = none

-- The calls of the observer phase over `os`.
structure Observed (u : Text) (os : List Listener) (calls : List Call) : Prop where
  listener : calls.map Call.listener = os.take calls.length
  changed : ∀ c ∈ calls, c.changed = u ∧ c.downstream = none
  complete : (∀ c ∈ calls, c.outcome = .ok ()) → calls.length = os.length

-- What the three phases of a notification of `u` begun on registry `r` told with calls `c₁`,
-- `c₂` and `c₃`, ending with `res`. A phase runs only if the calls before it returned.
structure Phases (u : Text) (r : Registry) (c₁ c₂ c₃ : List Call) (res : Except Fault Unit) :
    Prop where
  unowned : r.roster.primary = none → c₁ = [] ∧ c₂ = []
  direct : r.roster.primary.isSome → Told u (r.graph.downstreamOf u).toList r c₁
  viaClass : r.roster.primary.isSome → r.scheme.isClassLevel u = false →
    r.scheme.isValid (.str (r.scheme.classOf u)) = true → (∀ c ∈ c₁, c.outcome = .ok ()) →
    Told u (((lastAfter r c₁).graph.downstreamOf (r.scheme.classOf u)).toList.filter
      fun x => !((told c₁).contains x || x == u)) (lastAfter r c₁) c₂
  classLevel : r.scheme.isClassLevel u = true → c₂ = []
  invalidClass : r.roster.primary.isSome → r.scheme.isClassLevel u = false →
    r.scheme.isValid (.str (r.scheme.classOf u)) = false → (∀ c ∈ c₁, c.outcome = .ok ()) →
    c₂ = [] ∧ c₃ = [] ∧
      res = .error (.invalidIdentifier (.str (r.scheme.classOf u)) (.invalid "upstream"))
  observers : (∀ c ∈ c₁ ++ c₂, c.outcome = .ok ()) →
    (r.roster.primary = none ∨ r.scheme.isClassLevel u = true ∨
      r.scheme.isValid (.str (r.scheme.classOf u)) = true) →
    Observed u (lastAfter r (c₁ ++ c₂)).roster.observers c₃
  returned : (∀ c ∈ c₁ ++ c₂ ++ c₃, c.outcome = .ok ()) →
    (r.roster.primary = none ∨ r.scheme.isClassLevel u = true ∨
      r.scheme.isValid (.str (r.scheme.classOf u)) = true) → res = .ok ()

variable {react : Run.Reaction σ} {r r' : Registry} {c : Call} {cs ds : List Call}

@[simp] theorem lastAfter_nil : lastAfter r [] = r := rfl

@[simp] theorem lastAfter_cons : lastAfter r (c :: cs) = lastAfter c.after cs := rfl

theorem lastAfter_append : lastAfter r (cs ++ ds) = lastAfter (lastAfter r cs) ds :=
  List.foldl_append

theorem Prepared.roster (h : Prepared r r') : r'.roster = r.roster := by
  obtain ⟨j, c, -, rfl⟩ := h; rfl

theorem Prepared.count (h : Prepared r r') : r'.count = r.count := by
  obtain ⟨j, c, -, rfl⟩ := h; rfl

-- Telling a listener inside a frame keeps everything a call must keep.
theorem Prepared.kept (h : Prepared r r') (hs : r.Sound) (hd : r.depth ≠ 0) :
    Registry.Kept r r' := by
  obtain ⟨j, c, hc, rfl⟩ := h
  exact ⟨⟨hs.graph, hs.traced, hs.kinds, hs.limit, hc, hs.running, fun h => absurd h hd,
    hs.admitted⟩, rfl, rfl, rfl, Nat.le_refl _⟩

-- A call of a reaction that keeps the registry leaves what a listener may leave.
theorem Runs.kept (hc : Runs react c) (hk : ∀ l u d, Run.Keeps (react l u d))
    (hs : c.before.Sound) : Registry.Kept c.before c.after := by
  obtain ⟨h, hb, -, ha⟩ := hc
  rw [← hb] at hs ⊢
  rw [← ha]
  exact hk _ _ _ h hs

-- A call of a reaction that returns from every sound registry returned.
theorem Runs.returned (hc : Runs react c) (hr : ∀ l u d, Run.Returns (react l u d))
    (hs : c.before.Sound) : c.outcome = .ok () := by
  obtain ⟨h, hb, ho, -⟩ := hc
  obtain ⟨a, ha⟩ := hr c.listener c.changed c.downstream h (hb ▸ hs)
  rw [← ho, ha]

theorem Chain.runs (h : Chain react r cs) : ∀ c ∈ cs, Runs react c := by
  induction cs generalizing r with
  | nil => exact fun _ h => (by cases h)
  | cons c cs ih =>
    obtain ⟨-, hc, hcs⟩ := h
    intro c' hc'
    cases List.mem_cons.1 hc' with
    | inl h => rw [h]; exact hc
    | inr h => exact ih hcs c' h

theorem chain_append :
    Chain react r (cs ++ ds) ↔ Chain react r cs ∧ Chain react (lastAfter r cs) ds := by
  induction cs generalizing r with
  | nil => simp [Chain]
  | cons c cs ih => simp only [List.cons_append, Chain, ih, lastAfter_cons, and_assoc]

section Chain

variable (hk : ∀ l u d, Run.Keeps (react l u d))
include hk

-- The run lemma of a chain: from a sound registry inside a frame, every call finds a sound
-- registry at the same depth, and the last one leaves what a listener may leave.
theorem Chain.kept (h : Chain react r cs) (hs : r.Sound) (hd : r.depth ≠ 0) :
    Registry.Kept r (lastAfter r cs) ∧ ∀ c ∈ cs, c.before.Sound ∧ c.before.depth = r.depth := by
  induction cs generalizing r with
  | nil => exact ⟨.refl hs, fun _ h => by cases h⟩
  | cons c cs ih =>
    obtain ⟨hp, hc, hcs⟩ := h
    have before := hp.kept hs hd
    have after := before.trans (hc.kept hk before.sound)
    obtain ⟨hlast, hcalls⟩ := ih hcs after.sound (by rw [after.depth]; exact hd)
    refine ⟨after.trans hlast, fun c' hc' => ?_⟩
    cases List.mem_cons.1 hc' with
    | inl h => subst h; exact ⟨before.sound, before.depth⟩
    | inr h => exact ⟨(hcalls c' h).1, (hcalls c' h).2.trans after.depth⟩

-- Each call adds what it adds to the count of notifications; nothing between calls does.
theorem Chain.count (h : Chain react r cs) (hs : r.Sound) (hd : r.depth ≠ 0) :
    (lastAfter r cs).count = r.count + (cs.map fun c => c.after.count - c.before.count).sum := by
  induction cs generalizing r with
  | nil => rfl
  | cons c cs ih =>
    obtain ⟨hp, hc, hcs⟩ := h
    have before := hp.kept hs hd
    have call := hc.kept hk before.sound
    have after := before.trans call
    have step := ih hcs after.sound (by rw [after.depth]; exact hd)
    simp only [lastAfter_cons, List.map_cons, List.sum_cons, step]
    have := call.count
    have := hp.count
    omega

end Chain

theorem ends_nil {α : Type} (res : Except Fault α) : Ends [] res :=
  ⟨fun _ h => (by cases h), fun _ _ h => (by cases h)⟩

theorem ends_single : Ends [c] c.outcome :=
  ⟨fun _ h => (by cases h), fun _ _ h hf => (by cases h; exact hf)⟩

-- A list of calls is empty, or some calls and a last one.
theorem eq_nil_or_append_last (cs : List Call) : cs = [] ∨ ∃ pre c, cs = pre ++ [c] := by
  rcases List.eq_nil_or_concat cs with h | ⟨pre, c, h⟩
  · exact .inl h
  · exact .inr ⟨pre, c, by rw [h, List.concat_eq_append]⟩

-- A run that ended normally had every call return.
theorem Ends.all_ok {α : Type} {a : α} (h : Ends cs (.ok a)) : ∀ c ∈ cs, c.outcome = .ok () := by
  intro c hc
  rcases eq_nil_or_append_last cs with rfl | ⟨pre, l, rfl⟩
  · cases hc
  cases List.mem_append.1 hc with
  | inl h' => exact h.1 c (by simpa using h')
  | inr h' =>
    rw [List.mem_singleton.1 h']
    -- the last call returned too, or the run would have ended with its fault
    cases ho : l.outcome with
    | ok u => rfl
    | error f => cases h.2 l f List.getLast?_concat ho

theorem Ends.append {α β : Type} {a : α} {res : Except Fault β} (h₁ : Ends cs (.ok a))
    (h₂ : Ends ds res) : Ends (cs ++ ds) res := by
  have ok₁ := h₁.all_ok
  rcases eq_nil_or_append_last ds with rfl | ⟨ds', d, rfl⟩
  · refine ⟨fun c hc => ok₁ c (List.dropLast_subset _ (by simpa using hc)), fun c f hc hf => ?_⟩
    rw [List.append_nil] at hc
    rw [ok₁ c (List.mem_of_getLast? hc)] at hf
    cases hf
  · refine ⟨fun c hc => ?_, fun c f hc hf => h₂.2 c f (by simpa using hc) hf⟩
    rw [← List.append_assoc, List.dropLast_concat] at hc
    cases List.mem_append.1 hc with
    | inl h => exact ok₁ c h
    | inr h => exact h₂.1 c (by simpa using h)

section Told

variable {u x : Text} {xs : List Text}

theorem Told.empty : Told u [] r [] :=
  ⟨rfl, fun _ h => (by cases h), fun _ h => (by cases h), fun _ h => (by cases h)⟩

-- A primary phase that finds no primary consumer makes no call.
theorem Told.stopped (hp : r.roster.primary = none) : Told u xs r [] :=
  ⟨rfl, fun _ h => (by cases h), fun _ h => (by cases h), fun _ _ => hp⟩

-- A primary phase whose first call failed makes no other.
theorem Told.failed (hx : c.downstream = some x) (hu : c.changed = u)
    (hp : c.before.roster.primary = some c.listener) (hf : c.outcome ≠ .ok ()) :
    Told u (x :: xs) r [c] where
  downstream := by simp [hx]
  changed := by simp [hu]
  primary := by simp [hp]
  stop hok _ := absurd (hok c List.mem_cons_self) hf

theorem Told.cons (hx : c.downstream = some x) (hu : c.changed = u)
    (hp : c.before.roster.primary = some c.listener) (ht : Told u xs c.after cs) :
    Told u (x :: xs) r (c :: cs) where
  downstream := by simp [hx, ht.downstream]
  changed c' hc' := by
    cases List.mem_cons.1 hc' with
    | inl h => rw [h, hu]
    | inr h => exact ht.changed c' h
  primary c' hc' := by
    cases List.mem_cons.1 hc' with
    | inl h => rw [h, hp]
    | inr h => exact ht.primary c' h
  stop hok hlt := ht.stop (fun c' h => hok c' (List.mem_cons_of_mem _ h)) (by simpa using hlt)

-- A primary phase told about the first of its identifiers.
theorem Told.told_eq (ht : Told u xs r cs) : told cs = xs.take cs.length := by
  have h := congrArg (List.filterMap id) ht.downstream
  rw [List.filterMap_map, List.filterMap_map] at h
  simpa [told] using h

-- A primary phase's calls read the registry they started from only for its primary consumer.
theorem Told.congr (ht : Told u xs r cs) (hro : r'.roster = r.roster) : Told u xs r' cs where
  downstream := ht.downstream
  changed := ht.changed
  primary := ht.primary
  stop hok hlt := by
    rw [← ht.stop hok hlt]
    cases cs with
    | nil => rw [lastAfter_nil, lastAfter_nil, hro]
    | cons c cs => rfl

end Told

theorem lastAfter_roster (hro : r'.roster = r.roster) :
    (lastAfter r' cs).roster = (lastAfter r cs).roster := by
  cases cs with
  | nil => exact hro
  | cons c cs => rfl

theorem lastAfter_graph (hg : r'.graph = r.graph) :
    (lastAfter r' cs).graph = (lastAfter r cs).graph := by
  cases cs with
  | nil => exact hg
  | cons c cs => rfl

-- The phases read the registry they started from only for its listeners, graph and scheme.
theorem Phases.congr {u : Text} {c₁ c₂ c₃ : List Call} {res : Except Fault Unit}
    (hp : Phases u r c₁ c₂ c₃ res) (hro : r'.roster = r.roster) (hg : r'.graph = r.graph)
    (hsc : r'.scheme = r.scheme) : Phases u r' c₁ c₂ c₃ res where
  unowned h := hp.unowned (hro ▸ h)
  direct h := by
    rw [hg]
    exact (hp.direct (hro ▸ h)).congr hro
  viaClass h₁ h₂ h₃ h₄ := by
    rw [lastAfter_graph hg, hsc]
    exact (hp.viaClass (hro ▸ h₁) (hsc ▸ h₂) (hsc ▸ h₃) h₄).congr (lastAfter_roster hro)
  classLevel h := hp.classLevel (hsc ▸ h)
  invalidClass h₁ h₂ h₃ h₄ := by
    rw [hsc]
    exact hp.invalidClass (hro ▸ h₁) (hsc ▸ h₂) (hsc ▸ h₃) h₄
  observers h₁ h₂ := by
    rw [lastAfter_roster hro]
    exact hp.observers h₁ (by rw [hro, hsc] at h₂; exact h₂)
  returned h₁ h₂ := hp.returned h₁ (by rw [hro, hsc] at h₂; exact h₂)

end Call

namespace Run

variable {σ α β : Type} {h : Host (σ × List Call)}

-- The host a recorded reaction runs in, without the record.
def narrow (h : Host (σ × List Call)) : Host σ := ⟨h.registry, h.clock, h.logs, h.own.1⟩

-- `react`, recording each call it gets after the calls recorded before.
def tap (react : Reaction σ) : Reaction (σ × List Call) := fun l u d => do
  let h ← get
  let p := (react l u d).exec (narrow h)
  set ({ registry := p.2.registry, clock := p.2.clock, logs := p.2.logs
         own := (p.2.own, h.own.2 ++ [⟨l, u, d, h.registry, p.1, p.2.registry⟩]) } :
    Host (σ × List Call))
  lift p.1

-- The calls of `react` a run from `h` to `p` made.
structure Made (react : Reaction σ) (h : Host (σ × List Call))
    (p : Except Fault α × Host (σ × List Call)) (calls : List Call) : Prop where
  recorded : p.2.own.2 = h.own.2 ++ calls
  chain : Call.Chain react h.registry calls
  reaches : p.2.registry = Call.lastAfter h.registry calls
  ends : Call.Ends calls p.1

variable {react : Reaction σ}

theorem made_nil (res : Except Fault α) : Made react h (res, h) [] :=
  ⟨(List.append_nil _).symm, trivial, rfl, Call.ends_nil res⟩

-- Runs one after the other, the first ending normally, made the calls of both.
theorem Made.append {a : α} {h₁ : Host (σ × List Call)} {p : Except Fault β × Host (σ × List Call)}
    {cs ds : List Call} (m₁ : Made react h (.ok a, h₁) cs) (m₂ : Made react h₁ p ds) :
    Made react h p (cs ++ ds) where
  recorded := by rw [m₂.recorded, m₁.recorded, List.append_assoc]
  chain := Call.chain_append.2 ⟨m₁.chain, m₁.reaches ▸ m₂.chain⟩
  reaches := by rw [m₂.reaches, m₁.reaches, Call.lastAfter_append]
  ends := m₁.ends.append m₂.ends

-- A run that failed made the same calls whatever it was to give.
theorem Made.error {e : Fault} {h₁ : Host (σ × List Call)} {cs : List Call}
    (m : Made react h ((.error e : Except Fault α), h₁) cs) :
    Made react h ((.error e : Except Fault β), h₁) cs where
  recorded := m.recorded
  chain := m.chain
  reaches := m.reaches
  ends := ⟨m.ends.1, fun c f hc hf => by cases m.ends.2 c f hc hf; rfl⟩

-- A run that ended normally, then failed without a call, made the same calls.
theorem Made.fail {a : α} {e : Fault} {h₁ : Host (σ × List Call)} {cs : List Call}
    (m : Made react h (.ok a, h₁) cs) : Made react h ((.error e : Except Fault β), h₁) cs where
  recorded := m.recorded
  chain := m.chain
  reaches := m.reaches
  ends := ⟨m.ends.1, fun c f hc hf => by
    rw [m.ends.all_ok c (List.mem_of_getLast? hc)] at hf
    cases hf⟩

theorem Made.kept {p : Except Fault α × Host (σ × List Call)} {cs : List Call}
    (m : Made react h p cs) (hk : ∀ l u d, Keeps (react l u d)) (hs : h.registry.Sound)
    (hd : h.registry.depth ≠ 0) : Registry.Kept h.registry p.2.registry :=
  m.reaches ▸ (m.chain.kept hk hs hd).1

theorem exec_tap (l : Listener) (u : Text) (d : Option Text) :
    (tap react l u d).exec h =
      (((react l u d).exec (narrow h)).1,
        { registry := ((react l u d).exec (narrow h)).2.registry
          clock := ((react l u d).exec (narrow h)).2.clock
          logs := ((react l u d).exec (narrow h)).2.logs
          own := (((react l u d).exec (narrow h)).2.own, h.own.2 ++
            [⟨l, u, d, h.registry, ((react l u d).exec (narrow h)).1,
              ((react l u d).exec (narrow h)).2.registry⟩]) }) := by
  simp only [tap, exec_bind, exec_get, exec_set, exec_lift]

-- The component a call is charged to: an observer's own kind, else the component of the
-- downstream identifier.
def component (sc : Scheme) (l : Listener) : Option Text → Json
  | none => l.kind
  | some d => .str (sc.componentOf d)

-- Whether the trace level reaches a phase's threshold.
def traces (r : Registry) (ph : Phase) : Bool := Json.relate .ge r.trace (.int ph.threshold) matches .ok true

-- The journal record of a call about `u` and `d` in phase `ph` of notification `n`.
def record (n : Nat) (r : Registry) (ph : Phase) (l : Listener) (u : Text) (d : Option Text) :
    Entry :=
  ⟨n, r.depth, u, d, ph, component r.scheme l d⟩

-- The host a listener is called in, once told: recorded, traced, and made responsible.
def tell (n : Nat) (ph : Phase) (l : Listener) (u : Text) (d : Option Text) (h : Host σ) :
    Host σ :=
  { h with
    registry := { h.registry with
      journal := h.registry.journal.map (·.append (record n h.registry ph l u d))
      watch := { h.registry.watch with responsible := component h.registry.scheme l d } }
    logs := if traces h.registry ph then
        h.logs.push ⟨.debug, .dispatcher,
          traceLine n h.registry.depth u d ph (component h.registry.scheme l d)⟩
      else h.logs }

-- With a trace level that is a number, telling a listener is calling it once told.
theorem exec_dispatch_tell {h : Host σ} (react : Reaction σ) (n : Nat) (l : Listener) (u : Text)
    (d : Option Text) (ph : Phase) (ht : h.registry.trace.number?.isSome) :
    (dispatch react n l u d ph).exec h = (react l u d).exec (tell n ph l u d h) := by
  -- the trace level is a number, so comparing it with the phase's threshold never fails
  obtain ⟨x, hx⟩ := Option.isSome_iff_exists.1 ht
  obtain ⟨b, hb⟩ : ∃ b, Json.relate .ge h.registry.trace (.int ph.threshold) = .ok b :=
    ⟨_, Json.relate_of_number hx rfl⟩
  simp only [dispatch, exec_bind, exec_registry, exec_lift, hb]
  cases d <;> cases b <;> cases hj : h.registry.journal <;>
    simp [hj, exec_bind, exec_log, exec_modifyRegistry, tell, traces, hb, record, component]

-- A listener told about a downstream identifier, or one with a kind, is charged to a component
-- time can be charged to.
theorem component_isHashable {sc : Scheme} {l : Listener} {d : Option Text}
    (hl : d = none → l.kind.isHashable = true) : (component sc l d).isHashable = true := by
  cases d with
  | none => exact hl rfl
  | some d => rfl

-- What telling writes is what `Call.Prepared` allows, when the component can be charged.
theorem prepared_tell {h : Host σ} {n : Nat} {ph : Phase} {l : Listener} {u : Text}
    {d : Option Text} (hc : (component h.registry.scheme l d).isHashable = true) :
    Call.Prepared h.registry (tell n ph l u d h).registry :=
  ⟨_, _, hc, rfl⟩

-- Telling a listener inside a frame makes one call, to that listener about that identifier.
theorem made_dispatch (react : Reaction σ) (n : Nat) (l : Listener) (u : Text) (d : Option Text) (ph : Phase)
    (ht : h.registry.trace.number?.isSome) (hl : d = none → l.kind.isHashable = true) :
    ∃ c, Made react h ((dispatch (tap react) n l u d ph).exec h) [c] ∧
      ((dispatch (tap react) n l u d ph).exec h).1 = c.outcome ∧
      c.listener = l ∧ c.changed = u ∧ c.downstream = d := by
  rw [exec_dispatch_tell (tap react) n l u d ph ht, exec_tap]
  have prepared : Call.Prepared h.registry (tell n ph l u d h).registry :=
    prepared_tell (component_isHashable hl)
  exact ⟨_, ⟨rfl, ⟨prepared, ⟨narrow _, rfl, rfl, rfl⟩, trivial⟩, rfl, Call.ends_single⟩,
    rfl, rfl, rfl, rfl⟩

-- Telling a listener and, if it returned, going on from the host it left: the call is made, and
-- either it failed and nothing after it runs, or what follows runs from the host it left.
theorem made_dispatch_bind {β : Type} (react : Reaction σ) (n : Nat) (u : Text) (l : Listener)
    (d : Option Text) (ph : Phase) (k : Run (σ × List Call) β)
    (ht : h.registry.trace.number?.isSome) (hl : d = none → l.kind.isHashable = true) :
    ∃ c, c.listener = l ∧ c.changed = u ∧ c.downstream = d ∧ c.before.roster = h.registry.roster ∧
      ((c.outcome ≠ .ok () ∧
          Made react h ((dispatch (tap react) n l u d ph >>= fun _ => k).exec h) [c]) ∨
        ∃ h₁, Made react h (.ok (), h₁) [c] ∧
          (dispatch (tap react) n l u d ph >>= fun _ => k).exec h = k.exec h₁) := by
  obtain ⟨c, mc, ho, hcl, hcu, hcd⟩ := made_dispatch react n l u d ph ht hl
  refine ⟨c, hcl, hcu, hcd, mc.chain.1.roster, ?_⟩
  rw [exec_bind]
  rcases hr : (dispatch (tap react) n l u d ph).exec h with ⟨_ | _, h₁⟩
  · -- the call failed: nothing after it runs
    rw [hr] at mc ho
    exact .inl ⟨by rw [← ho]; simp, mc.error⟩
  · rw [hr] at mc
    exact .inr ⟨h₁, mc, rfl⟩

section Phases

variable (hk : ∀ l u d, Keeps (react l u d)) (n : Nat) (u : Text)
include hk

theorem made_directPhase : ∀ (xs told : List Text) (h : Host (σ × List Call)),
    h.registry.Sound → h.registry.depth ≠ 0 →
    ∃ calls, Made react h ((directPhase (tap react) n u xs told).exec h) calls ∧
      Call.Told u xs h.registry calls ∧
      ((∀ c ∈ calls, c.outcome = .ok ()) →
        ((directPhase (tap react) n u xs told).exec h).1 =
          .ok ((xs.take calls.length).reverse ++ told)) := by
  intro xs
  induction xs with
  | nil => exact fun told h _ _ => ⟨[], made_nil _, .empty, fun _ => rfl⟩
  | cons x xs ih =>
    intro told h hs hd
    simp only [directPhase, exec_bind, exec_registry]
    cases hp : h.registry.roster.primary with
    | none =>
      -- no primary consumer: the phase stops before `x`
      exact ⟨[], made_nil _, .stopped hp, fun _ => rfl⟩
    | some p =>
      dsimp only
      obtain ⟨c, hl, hu, hx, hro, step⟩ := made_dispatch_bind react n u p (some x) .direct
        (directPhase (tap react) n u xs (x :: told)) hs.traced (by simp)
      have primary : c.before.roster.primary = some c.listener := by rw [hl, hro, hp]
      rcases step with ⟨failed, mc⟩ | ⟨h₁, mc, hrun⟩
      · -- the call failed: the phase ends with its fault
        exact ⟨[c], mc, .failed hx hu primary failed,
          fun hok => absurd (hok c List.mem_cons_self) failed⟩
      · have kept := mc.kept hk hs hd
        obtain ⟨cs, mcs, told', hres⟩ :=
          ih (x :: told) h₁ kept.sound (by rw [kept.depth]; exact hd)
        rw [show h₁.registry = c.after from mc.reaches] at told'
        rw [hrun]
        refine ⟨c :: cs, mc.append mcs, .cons hx hu primary told', fun hok => ?_⟩
        rw [hres fun c' h => hok c' (List.mem_cons_of_mem _ h)]
        simp

theorem made_classPhase (told : List Text) : ∀ (ys : List Text) (h : Host (σ × List Call)),
    h.registry.Sound → h.registry.depth ≠ 0 →
    ∃ calls, Made react h ((classPhase (tap react) n u told ys).exec h) calls ∧
      Call.Told u (ys.filter fun y => !(told.contains y || y == u)) h.registry calls ∧
      ((∀ c ∈ calls, c.outcome = .ok ()) →
        ((classPhase (tap react) n u told ys).exec h).1 = .ok ()) := by
  intro ys
  induction ys with
  | nil => exact fun h _ _ => ⟨[], made_nil _, .empty, fun _ => rfl⟩
  | cons y ys ih =>
    intro h hs hd
    simp only [classPhase]
    by_cases hskip : (told.contains y || y == u) = true
    · -- `y` was told already, or is the changed identifier: the phase goes on without it
      simp only [hskip, ite_true, List.filter_cons, Bool.not_true]
      exact ih h hs hd
    · simp only [hskip, Bool.false_eq_true, ite_false, List.filter_cons, Bool.not_false,
        ite_true, exec_bind, exec_registry]
      cases hp : h.registry.roster.primary with
      | none => exact ⟨[], made_nil _, .stopped hp, fun _ => rfl⟩
      | some p =>
        dsimp only
        obtain ⟨c, hl, hu, hx, hro, step⟩ := made_dispatch_bind react n u p (some y) .viaClass
          (classPhase (tap react) n u told ys) hs.traced (by simp)
        have primary : c.before.roster.primary = some c.listener := by rw [hl, hro, hp]
        rcases step with ⟨failed, mc⟩ | ⟨h₁, mc, hrun⟩
        · exact ⟨[c], mc, .failed hx hu primary failed,
            fun hok => absurd (hok c List.mem_cons_self) failed⟩
        · have kept := mc.kept hk hs hd
          obtain ⟨cs, mcs, told', hres⟩ := ih h₁ kept.sound (by rw [kept.depth]; exact hd)
          rw [show h₁.registry = c.after from mc.reaches] at told'
          rw [hrun]
          exact ⟨c :: cs, mc.append mcs, .cons hx hu primary told',
            fun hok => hres fun c' h => hok c' (List.mem_cons_of_mem _ h)⟩

theorem made_observerPhase : ∀ (os : List Listener) (h : Host (σ × List Call)),
    h.registry.Sound → h.registry.depth ≠ 0 → (∀ o ∈ os, o.kind.isHashable = true) →
    ∃ calls, Made react h ((observerPhase (tap react) n u os).exec h) calls ∧
      Call.Observed u os calls ∧
      ((∀ c ∈ calls, c.outcome = .ok ()) →
        ((observerPhase (tap react) n u os).exec h).1 = .ok ()) := by
  intro os
  induction os with
  | nil =>
    exact fun h _ _ _ => ⟨[], made_nil _, ⟨rfl, fun _ h => (by cases h), fun _ => rfl⟩, fun _ => rfl⟩
  | cons o os ih =>
    intro h hs hd hkinds
    simp only [observerPhase]
    obtain ⟨c, hl, hu, hx, -, step⟩ := made_dispatch_bind react n u o none .observer
      (observerPhase (tap react) n u os) hs.traced fun _ => hkinds o List.mem_cons_self
    rcases step with ⟨failed, mc⟩ | ⟨h₁, mc, hrun⟩
    · -- the call failed: the other observers are not told
      exact ⟨[c], mc, ⟨by simp [hl], by simp [hu, hx],
        fun hok => absurd (hok c List.mem_cons_self) failed⟩,
        fun hok => absurd (hok c List.mem_cons_self) failed⟩
    · rw [hrun]
      have kept := mc.kept hk hs hd
      obtain ⟨cs, mcs, obs, hres⟩ := ih h₁ kept.sound (by rw [kept.depth]; exact hd)
        fun o' h => hkinds o' (List.mem_cons_of_mem _ h)
      refine ⟨c :: cs, mc.append mcs, ⟨by simp [hl, obs.listener], fun c' hc' => ?_, fun hok => ?_⟩,
        fun hok => hres fun c' h => hok c' (List.mem_cons_of_mem _ h)⟩
      · cases List.mem_cons.1 hc' with
        | inl h => rw [h]; exact ⟨hu, hx⟩
        | inr h => exact obs.changed c' h
      · simp [obs.complete fun c' h => hok c' (List.mem_cons_of_mem _ h)]

-- The three phases make their calls one phase after the other, each over the identifiers or
-- observers of its own moment.
theorem made_phases (h : Host (σ × List Call)) (hs : h.registry.Sound) (hd : h.registry.depth ≠ 0) :
    ∃ c₁ c₂ c₃, Made react h ((phases (tap react) n u).exec h) (c₁ ++ c₂ ++ c₃) ∧
      Call.Phases u h.registry c₁ c₂ c₃ ((phases (tap react) n u).exec h).1 := by
  simp only [phases, exec_bind, exec_registry]
  cases hp : h.registry.roster.primary with
  | none =>
    -- no primary consumer: only the observers are told
    simp only [Option.isSome_none, Bool.false_eq_true, ite_false, exec_bind, exec_registry]
    obtain ⟨c₃, m₃, obs, ret₃⟩ := made_observerPhase hk n u _ h hs hd hs.kinds
    exact ⟨[], [], c₃, m₃, {
      unowned := fun _ => ⟨rfl, rfl⟩
      direct := fun h => by simp [hp] at h
      viaClass := fun h => by simp [hp] at h
      classLevel := fun _ => rfl
      invalidClass := fun h => by simp [hp] at h
      observers := fun _ _ => obs
      returned := fun hok _ => ret₃ fun c h => hok c (by simpa using h) }⟩
  | some p =>
    simp only [Option.isSome_some, ite_true]
    rw [exec_bind]
    obtain ⟨c₁, m₁, told₁, ret₁⟩ :=
      made_directPhase hk n u (h.registry.graph.downstreamOf u).toList [] h hs hd
    rcases hr₁ : (directPhase (tap react) n u (h.registry.graph.downstreamOf u).toList []).exec h
      with ⟨_ | told, h₁⟩
    · -- the direct phase failed: nothing else runs
      rw [hr₁] at m₁ ret₁
      dsimp only
      have failed : ¬∀ c ∈ c₁, c.outcome = .ok () := fun hok => by cases ret₁ hok
      refine ⟨c₁, [], [], by simpa only [List.append_nil] using m₁.error, {
        unowned := fun h => by simp [hp] at h
        direct := fun _ => told₁
        viaClass := fun _ _ _ hok => absurd hok failed
        classLevel := fun _ => rfl
        invalidClass := fun _ _ _ hok => absurd hok failed
        observers := fun hok _ => absurd (fun c h => hok c (List.mem_append_left _ h)) failed
        returned := fun hok _ => absurd (fun c h => hok c (by simp [h])) failed }⟩
    · rw [hr₁] at m₁ ret₁
      dsimp only
      have ok₁ := m₁.ends.all_ok
      have kept₁ := m₁.kept hk hs hd
      have reach₁ : h₁.registry = Call.lastAfter h.registry c₁ := m₁.reaches
      have hd₁ : h₁.registry.depth ≠ 0 := by rw [kept₁.depth]; exact hd
      have told_eq : told = ((h.registry.graph.downstreamOf u).toList.take c₁.length).reverse := by
        simpa using ret₁ ok₁
      cases hcl : h.registry.scheme.isClassLevel u
      · -- `u` names an instance: its class is checked, then the class phase runs
        simp only [Bool.not_false, ite_true]
        cases hv : h.registry.scheme.isValid (.str (h.registry.scheme.classOf u))
        · -- the class is no valid identifier: the notification fails before the class phase
          rw [exec_bind, Scheme.requireValid_eq_error hv, exec_lift]
          refine ⟨c₁, [], [], by simpa only [List.append_nil] using m₁.fail, {
            unowned := fun h => by simp [hp] at h
            direct := fun _ => told₁
            viaClass := fun _ _ h => by simp [hv] at h
            classLevel := fun h => by simp [hcl] at h
            invalidClass := fun _ _ _ _ => ⟨rfl, rfl, rfl⟩
            observers := fun _ h => by simp [hp, hcl, hv] at h
            returned := fun _ h => by simp [hp, hcl, hv] at h }⟩
        · rw [exec_bind, Scheme.requireValid_str hv, exec_lift]
          simp only [exec_bind, exec_registry]
          obtain ⟨c₂, m₂, told₂, ret₂⟩ := made_classPhase hk n u told
            (h₁.registry.graph.downstreamOf (h.registry.scheme.classOf u)).toList h₁ kept₁.sound hd₁
          -- the class phase skips what the direct phase told
          have skip : ∀ x, (told.contains x || x == u) = ((Call.told c₁).contains x || x == u) := by
            intro x
            rw [told_eq, told₁.told_eq]
            simp
          rw [reach₁, List.filter_congr fun x _ => by rw [skip x]] at told₂
          rcases hr₂ : (classPhase (tap react) n u told
              (h₁.registry.graph.downstreamOf (h.registry.scheme.classOf u)).toList).exec h₁
            with ⟨_ | _, h₂⟩
          · -- the class phase failed: the observers are not told
            rw [hr₂] at m₂ ret₂
            dsimp only
            have failed : ¬∀ c ∈ c₂, c.outcome = .ok () := fun hok => by cases ret₂ hok
            refine ⟨c₁, c₂, [], by simpa only [List.append_nil] using m₁.append m₂, {
              unowned := fun h => by simp [hp] at h
              direct := fun _ => told₁
              viaClass := fun _ _ _ _ => told₂
              classLevel := fun h => by simp [hcl] at h
              invalidClass := fun _ _ h => by simp [hv] at h
              observers := fun hok _ => absurd (fun c h => hok c (List.mem_append_right _ h))
                failed
              returned := fun hok _ => absurd (fun c h => hok c (by simp [h])) failed }⟩
          · rw [hr₂] at m₂
            dsimp only
            have kept₂ := m₂.kept hk kept₁.sound hd₁
            obtain ⟨c₃, m₃, obs, ret₃⟩ := made_observerPhase hk n u _ h₂ kept₂.sound
              (by rw [kept₂.depth]; exact hd₁) kept₂.sound.kinds
            rw [show h₂.registry = Call.lastAfter h.registry (c₁ ++ c₂) by
              rw [m₂.reaches, reach₁, Call.lastAfter_append]] at obs
            exact ⟨c₁, c₂, c₃, (m₁.append m₂).append m₃, {
              unowned := fun h => by simp [hp] at h
              direct := fun _ => told₁
              viaClass := fun _ _ _ _ => told₂
              classLevel := fun h => by simp [hcl] at h
              invalidClass := fun _ _ h => by simp [hv] at h
              observers := fun _ _ => obs
              returned := fun hok _ => ret₃ fun c h => hok c (by simp [h]) }⟩
      · -- `u` names a class: the observers are told next
        simp only [Bool.not_true, Bool.false_eq_true, ite_false, exec_bind, exec_registry]
        obtain ⟨c₃, m₃, obs, ret₃⟩ :=
          made_observerPhase hk n u _ h₁ kept₁.sound hd₁ kept₁.sound.kinds
        rw [reach₁] at obs
        refine ⟨c₁, [], c₃, by simpa only [List.append_nil] using m₁.append m₃, {
          unowned := fun h => by simp [hp] at h
          direct := fun _ => told₁
          viaClass := fun _ h => by simp [hcl] at h
          classLevel := fun _ => rfl
          invalidClass := fun _ h => by simp [hcl] at h
          observers := fun _ _ => by simpa only [List.append_nil] using obs
          returned := fun hok _ => ret₃ fun c h => hok c (by simp [h]) }⟩

end Phases

end Run

end Invalidation
