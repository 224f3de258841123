import Invalidation.Proofs.Frame

namespace Invalidation

namespace Run

variable {σ : Type} {h : Host σ}

-- Whether or not its body failed, a computation with a last step ends in the host that step left.
theorem exec_andFinally_host {α : Type} (body : Run σ α) (last : Run σ Unit) :
    ((andFinally body last).exec h).2 = (last.exec (body.exec h).2).2 := by
  rw [exec_andFinally]
  rcases last.exec (body.exec h).2 with ⟨_ | _, h'⟩ <;> rfl

end Run

-- One callback: the listener, the downstream identifier told about and the phase, the host the
-- listener was called in, how the call ended and the host it left.
structure Visit (σ : Type) where
  listener : Listener
  downstream : Option Text
  phase : Phase
  start : Host σ
  outcome : Except Fault Unit
  finish : Host σ

namespace Visit

variable {σ : Type}

-- Visits of frame `n` for a change of `u` that follow each other from host `h`: each listener
-- is called in the host the previous visit left, once told.
def Chain (react : Run.Reaction σ) (n : Nat) (u : Text) : Host σ → List (Visit σ) → Prop
  | _, [] => True
  | h, v :: vs => v.start = Run.tell n v.phase v.listener u v.downstream h ∧
      (react v.listener u v.downstream).exec v.start = (v.outcome, v.finish) ∧
      Chain react n u v.finish vs

-- The host the last of `vs` left, or `h` when there are none.
def last (h : Host σ) (vs : List (Visit σ)) : Host σ := vs.foldl (fun _ v => v.finish) h

variable {react : Run.Reaction σ} {n : Nat} {u : Text} {h : Host σ} {v : Visit σ}
  {vs ws : List (Visit σ)}

@[simp] theorem last_nil : last h [] = h := rfl

@[simp] theorem last_cons : last h (v :: vs) = last v.finish vs := rfl

theorem last_append : last h (vs ++ ws) = last (last h vs) ws := List.foldl_append

theorem chain_append :
    Chain react n u h (vs ++ ws) ↔ Chain react n u h vs ∧ Chain react n u (last h vs) ws := by
  induction vs generalizing h with
  | nil => simp [Chain]
  | cons v vs ih => simp only [List.cons_append, Chain, ih, last_cons, and_assoc]

-- The run lemma of visits: with listeners that leave what a listener may leave, from a sound
-- registry inside a frame every listener is called in a sound registry at that depth, under the
-- same scheme, and the last visit leaves what a listener may leave.
theorem Chain.kept (hk : ∀ l u d, Run.Keeps (react l u d)) (hc : Chain react n u h vs)
    (hs : h.registry.Sound) (hd : h.registry.depth ≠ 0)
    (hkinds : ∀ v ∈ vs, v.downstream = none → v.listener.kind.isHashable = true) :
    Registry.Kept h.registry (last h vs).registry ∧
      ∀ v ∈ vs, v.start.registry.Sound ∧ v.start.registry.depth = h.registry.depth ∧
        v.start.registry.scheme = h.registry.scheme := by
  induction vs generalizing h with
  | nil => exact ⟨.refl hs, fun _ h => (by cases h)⟩
  | cons v vs ih =>
    obtain ⟨hstart, hrun, hcs⟩ := hc
    have before : Registry.Kept h.registry v.start.registry :=
      hstart ▸ (Run.prepared_tell (Run.component_isHashable (hkinds v List.mem_cons_self))).kept hs hd
    have call : Registry.Kept v.start.registry v.finish.registry := by
      have := hk v.listener u v.downstream v.start before.sound
      rwa [hrun] at this
    have after := before.trans call
    obtain ⟨hlast, hvisits⟩ := ih hcs after.sound (by rw [after.depth]; exact hd)
      fun w hw => hkinds w (List.mem_cons_of_mem _ hw)
    refine ⟨after.trans hlast, fun w hw => ?_⟩
    cases List.mem_cons.1 hw with
    | inl h => subst h; exact ⟨before.sound, before.depth, before.scheme⟩
    | inr h =>
      obtain ⟨s, d, sc⟩ := hvisits w h
      exact ⟨s, d.trans after.depth, sc.trans after.scheme⟩

-- What each visit's call gives, chosen once for all the visits.
theorem choose_each {β : Type} [Inhabited β] {P : Visit σ → β → Prop}
    (hP : ∀ v ∈ vs, ∃ b, P v b) : ∃ f : Visit σ → β, ∀ v ∈ vs, P v (f v) := by
  have each : ∀ v, ∃ b, v ∈ vs → P v b := by
    intro v
    by_cases hv : v ∈ vs
    · obtain ⟨b, hb⟩ := hP v hv
      exact ⟨b, fun _ => hb⟩
    · exact ⟨default, fun h => absurd h hv⟩
  exact ⟨fun v => (each v).choose, fun v hv => (each v).choose_spec hv⟩

end Visit

namespace Run

variable {σ : Type} {react : Reaction σ} {n : Nat} {u : Text}

section Phases

variable (hk : ∀ l u d, Keeps (react l u d))
include hk

-- Telling a listener inside a frame is one visit, after which the registry is still sound.
theorem exec_dispatch_visit (l : Listener) (d : Option Text) (ph : Phase) (h : Host σ)
    (hs : h.registry.Sound) (hd : h.registry.depth ≠ 0)
    (hl : d = none → l.kind.isHashable = true) :
    ∃ v : Visit σ, v.listener = l ∧ v.downstream = d ∧ v.phase = ph ∧
      Visit.Chain react n u h [v] ∧ (dispatch react n l u d ph).exec h = (v.outcome, v.finish) ∧
      v.finish.registry.Sound ∧ v.finish.registry.depth = h.registry.depth := by
  rw [exec_dispatch_tell react n l u d ph hs.traced]
  let v : Visit σ := ⟨l, d, ph, tell n ph l u d h, ((react l u d).exec (tell n ph l u d h)).1,
    ((react l u d).exec (tell n ph l u d h)).2⟩
  have chain : Visit.Chain react n u h [v] := ⟨rfl, rfl, trivial⟩
  have kept := (chain.kept hk hs hd fun w hw => by
    rw [List.mem_singleton.1 hw]; exact hl).1
  exact ⟨v, rfl, rfl, rfl, chain, rfl, kept.sound, kept.depth⟩

-- Telling a listener and, if it returned, going on from the host it left makes that visit and
-- then the visits of what follows.
theorem visits_dispatch_bind {β : Type} (l : Listener) (d : Option Text) (ph : Phase)
    (k : Run σ β) (P : Visit σ → Prop) (h : Host σ) (hs : h.registry.Sound)
    (hd : h.registry.depth ≠ 0) (hl : d = none → l.kind.isHashable = true)
    (hP : ∀ v : Visit σ, v.listener = l → v.downstream = d → v.phase = ph → P v)
    (hrest : ∀ h' : Host σ, h'.registry.Sound → h'.registry.depth ≠ 0 →
      ∃ vs : List (Visit σ), Visit.Chain react n u h' vs ∧ (∀ v ∈ vs, P v) ∧
        (k.exec h').2 = Visit.last h' vs) :
    ∃ vs : List (Visit σ), Visit.Chain react n u h vs ∧ (∀ v ∈ vs, P v) ∧
      ((dispatch react n l u d ph >>= fun _ => k).exec h).2 = Visit.last h vs := by
  obtain ⟨v, hvl, hvd, hph, chain, hrun, hs₁, hd₁⟩ :=
    exec_dispatch_visit hk (n := n) (u := u) l d ph h hs hd hl
  have visit := hP v hvl hvd hph
  rw [exec_bind, hrun]
  cases hout : v.outcome with
  | error e =>
    -- the call failed: nothing after it runs
    exact ⟨[v], chain, by simpa using visit, rfl⟩
  | ok _ =>
    obtain ⟨vs, chain', rest, last⟩ := hrest v.finish hs₁ (by rw [hd₁]; exact hd)
    exact ⟨v :: vs, ⟨chain.1, chain.2.1, chain'⟩, List.forall_mem_cons.2 ⟨visit, rest⟩, last⟩

theorem visits_directPhase : ∀ (xs told : List Text) (h : Host σ),
    h.registry.Sound → h.registry.depth ≠ 0 →
    ∃ vs : List (Visit σ), Visit.Chain react n u h vs ∧
      (∀ v ∈ vs, v.phase = .direct ∧ v.downstream.isSome) ∧
      ((directPhase react n u xs told).exec h).2 = Visit.last h vs := by
  intro xs
  induction xs with
  | nil => exact fun _ h _ _ => ⟨[], trivial, fun _ h => (by cases h), rfl⟩
  | cons x xs ih =>
    intro told h hs hd
    simp only [directPhase, exec_bind, exec_registry]
    cases h.registry.roster.primary with
    | none => exact ⟨[], trivial, fun _ h => (by cases h), rfl⟩
    | some p =>
      exact visits_dispatch_bind hk p (some x) .direct _ _ h hs hd (by simp)
        (fun v _ hx hph => ⟨hph, by simp [hx]⟩) (ih (x :: told))

theorem visits_classPhase (told : List Text) : ∀ (ys : List Text) (h : Host σ),
    h.registry.Sound → h.registry.depth ≠ 0 →
    ∃ vs : List (Visit σ), Visit.Chain react n u h vs ∧
      (∀ v ∈ vs, v.phase = .viaClass ∧ v.downstream.isSome) ∧
      ((classPhase react n u told ys).exec h).2 = Visit.last h vs := by
  intro ys
  induction ys with
  | nil => exact fun h _ _ => ⟨[], trivial, fun _ h => (by cases h), rfl⟩
  | cons y ys ih =>
    intro h hs hd
    simp only [classPhase]
    by_cases hskip : (told.contains y || y == u) = true
    · simp only [hskip, ite_true]
      exact ih h hs hd
    · simp only [hskip, Bool.false_eq_true, ite_false, exec_bind, exec_registry]
      cases h.registry.roster.primary with
      | none => exact ⟨[], trivial, fun _ h => (by cases h), rfl⟩
      | some p =>
        exact visits_dispatch_bind hk p (some y) .viaClass _ _ h hs hd (by simp)
          (fun v _ hy hph => ⟨hph, by simp [hy]⟩) ih

theorem visits_observerPhase : ∀ (os : List Listener) (h : Host σ),
    h.registry.Sound → h.registry.depth ≠ 0 → (∀ o ∈ os, o.kind.isHashable = true) →
    ∃ vs : List (Visit σ), Visit.Chain react n u h vs ∧
      (∀ v ∈ vs, v.phase = .observer ∧ v.downstream = none ∧ v.listener.kind.isHashable = true) ∧
      ((observerPhase react n u os).exec h).2 = Visit.last h vs := by
  intro os
  induction os with
  | nil => exact fun h _ _ _ => ⟨[], trivial, fun _ h => (by cases h), rfl⟩
  | cons o os ih =>
    intro h hs hd hkinds
    simp only [observerPhase]
    exact visits_dispatch_bind hk o none .observer _ _ h hs hd (fun _ => hkinds o List.mem_cons_self)
      (fun v hl hnone hph => ⟨hph, hnone, hl ▸ hkinds o List.mem_cons_self⟩)
      fun h' hs' hd' => ih h' hs' hd' fun o' h => hkinds o' (List.mem_cons_of_mem _ h)

-- The three phases are the visits of the direct phase, then those of the class phase, then those
-- of the observer phase, each run from the host the one before left.
theorem visits_phases (h : Host σ) (hs : h.registry.Sound) (hd : h.registry.depth ≠ 0) :
    ∃ vs₁ vs₂ vs₃ : List (Visit σ), Visit.Chain react n u h (vs₁ ++ vs₂ ++ vs₃) ∧
      (∀ v ∈ vs₁, v.phase = .direct ∧ v.downstream.isSome) ∧
      (∀ v ∈ vs₂, v.phase = .viaClass ∧ v.downstream.isSome) ∧
      (∀ v ∈ vs₃, v.phase = .observer ∧ v.downstream = none ∧ v.listener.kind.isHashable = true) ∧
      ((phases react n u).exec h).2 = Visit.last h (vs₁ ++ vs₂ ++ vs₃) := by
  -- the visits of a primary phase tell about a downstream identifier, so need no observer kind
  have told : ∀ {vs : List (Visit σ)} {ph : Phase},
      (∀ v ∈ vs, v.phase = ph ∧ v.downstream.isSome) →
      ∀ v ∈ vs, v.downstream = none → v.listener.kind.isHashable = true :=
    fun hvs v hv hn => by simpa [hn] using (hvs v hv).2
  simp only [phases, exec_bind, exec_registry]
  cases hp : h.registry.roster.primary with
  | none =>
    -- no primary consumer: only the observers are told
    simp only [Option.isSome_none, Bool.false_eq_true, ite_false, exec_bind, exec_registry]
    obtain ⟨vs₃, chain₃, phase₃, last₃⟩ :=
      visits_observerPhase hk (n := n) (u := u) _ h hs hd hs.kinds
    exact ⟨[], [], vs₃, chain₃, by simp, by simp, phase₃, last₃⟩
  | some p =>
    simp only [Option.isSome_some, ite_true]
    rw [exec_bind]
    obtain ⟨vs₁, chain₁, phase₁, last₁⟩ :=
      visits_directPhase hk (n := n) (u := u) (h.registry.graph.downstreamOf u).toList [] h hs hd
    have kept₁ := (chain₁.kept hk hs hd (told phase₁)).1
    have hd₁ : (Visit.last h vs₁).registry.depth ≠ 0 := by rw [kept₁.depth]; exact hd
    rcases hr₁ : (directPhase react n u (h.registry.graph.downstreamOf u).toList []).exec h
      with ⟨_ | told₁, h₁⟩
    · -- the direct phase failed: nothing else runs
      rw [hr₁] at last₁
      exact ⟨vs₁, [], [], by simpa using chain₁, phase₁, by simp, by simp, by simpa using last₁⟩
    · rw [hr₁] at last₁
      dsimp only at last₁ ⊢
      subst last₁
      cases hcl : h.registry.scheme.isClassLevel u
      · -- `u` names an instance: its class is checked, then the class phase runs
        simp only [Bool.not_false, ite_true]
        rw [exec_bind, exec_lift]
        cases hreq : h.registry.scheme.requireValid (.str (h.registry.scheme.classOf u)) "upstream"
          with
        | error e =>
          exact ⟨vs₁, [], [], by simpa using chain₁, phase₁, by simp, by simp, by simp⟩
        | ok c =>
          simp only [exec_bind, exec_registry]
          obtain ⟨vs₂, chain₂, phase₂, last₂⟩ := visits_classPhase hk (n := n) (u := u) told₁
            ((Visit.last h vs₁).registry.graph.downstreamOf c).toList (Visit.last h vs₁)
            kept₁.sound hd₁
          have kept₂ := (chain₂.kept hk kept₁.sound hd₁ (told phase₂)).1
          rcases hr₂ : (classPhase react n u told₁
              ((Visit.last h vs₁).registry.graph.downstreamOf c).toList).exec (Visit.last h vs₁)
            with ⟨_ | _, h₂⟩
          · -- the class phase failed: the observers are not told
            rw [hr₂] at last₂
            refine ⟨vs₁, vs₂, [], ?_, phase₁, phase₂, by simp, ?_⟩
            · simpa using Visit.chain_append.2 ⟨chain₁, chain₂⟩
            · simpa [Visit.last_append] using last₂
          · rw [hr₂] at last₂
            dsimp only at last₂ ⊢
            subst last₂
            obtain ⟨vs₃, chain₃, phase₃, last₃⟩ := visits_observerPhase hk (n := n) (u := u) _ _
              kept₂.sound (by rw [kept₂.depth]; exact hd₁) kept₂.sound.kinds
            refine ⟨vs₁, vs₂, vs₃, ?_, phase₁, phase₂, phase₃, ?_⟩
            · exact Visit.chain_append.2 ⟨Visit.chain_append.2 ⟨chain₁, chain₂⟩,
                by rw [Visit.last_append]; exact chain₃⟩
            · rw [last₃, Visit.last_append, Visit.last_append]
      · -- `u` names a class: the observers are told next
        simp only [Bool.not_true, Bool.false_eq_true, ite_false, exec_bind, exec_registry]
        obtain ⟨vs₃, chain₃, phase₃, last₃⟩ := visits_observerPhase hk (n := n) (u := u) _ _
          kept₁.sound hd₁ kept₁.sound.kinds
        refine ⟨vs₁, [], vs₃, ?_, phase₁, by simp, phase₃, ?_⟩
        · simpa using Visit.chain_append.2 ⟨chain₁, chain₃⟩
        · simpa [Visit.last_append] using last₃

-- A notification the guard lets in counts itself and opens a frame one level deeper, makes the
-- visits of its phases, then goes back up and closes the frame from the host the last visit left,
-- whether the visits ended normally or not.
theorem visits_notify (h : Host σ) (hs : h.registry.Sound) {v : Json}
    (hv : h.registry.scheme.requireValid v "upstream" = .ok u)
    (ha : h.registry.admitsAt h.registry.depth) :
    ∃ w, h.registry.watch.enter h.clock = .ok w ∧
      let h₁ : Host σ := { h with registry := { h.registry with
        count := h.registry.count + 1, depth := h.registry.depth + 1, watch := w } }
      h₁.registry.Sound ∧ ∃ vs₁ vs₂ vs₃ : List (Visit σ),
        Visit.Chain react (h.registry.count + 1) u h₁ (vs₁ ++ vs₂ ++ vs₃) ∧
        (∀ v ∈ vs₁ ++ vs₂ ++ vs₃, v.downstream = none → v.listener.kind.isHashable = true) ∧
        (∀ v ∈ vs₁, v.phase = .direct ∧ v.downstream.isSome) ∧
        (∀ v ∈ vs₂, v.phase = .viaClass ∧ v.downstream.isSome) ∧
        (∀ v ∈ vs₃, v.phase = .observer ∧ v.downstream = none ∧
          v.listener.kind.isHashable = true) ∧
        ((notify react v).exec h).2 = ((do
          modifyRegistry fun r => { r with depth := r.depth - 1 }
          closeFrame : Run σ Unit).exec (Visit.last h₁ (vs₁ ++ vs₂ ++ vs₃))).2 := by
  obtain ⟨ts, hts, he⟩ := exec_notify_admitted react hs hv ha
  refine ⟨_, hts, ?_⟩
  intro h₁
  have hs₁ : h₁.registry.Sound := hs.enter ha _ ts h.clock
  obtain ⟨vs₁, vs₂, vs₃, chain, direct, viaClass, observer, last⟩ :=
    visits_phases hk (n := h.registry.count + 1) (u := u) h₁ hs₁ (by simp [h₁])
  -- only observers are told with no downstream identifier, and their kinds can be charged
  have chargeable : ∀ v ∈ vs₁ ++ vs₂ ++ vs₃, v.downstream = none →
      v.listener.kind.isHashable = true := by
    intro v hv hn
    simp only [List.mem_append] at hv
    rcases hv with (hv | hv) | hv
    · simpa [hn] using (direct v hv).2
    · simpa [hn] using (viaClass v hv).2
    · exact (observer v hv).2.2
  refine ⟨hs₁, vs₁, vs₂, vs₃, chain, chargeable, direct, viaClass, observer, ?_⟩
  rw [he, exec_andFinally_host, last]

-- From a sound registry a notification leaves what a listener may leave, whether the guard lets it
-- in or not: notifications made from inside a listener compose.
theorem keeps_notify (v : Json) : Keeps (notify react v) :=
  keeps_notify_of_admitted fun h _ hs hv ha => by
    obtain ⟨w, -, hs₁, vs₁, vs₂, vs₃, chain, chargeable, -, -, -, last⟩ := visits_notify hk h hs hv ha
    have kept := (chain.kept hk hs₁ (by simp) chargeable).1
    obtain ⟨w', hclose, inner, outer⟩ := exec_close kept.sound kept.depth
    rw [last, hclose]
    exact ⟨.close hs rfl kept.maxDepth kept.sound kept.depth inner outer, kept.scheme,
      kept.maxDepth, rfl, Nat.le_of_succ_le kept.count⟩

end Phases

end Run

end Invalidation
