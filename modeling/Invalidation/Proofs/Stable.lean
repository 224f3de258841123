import Invalidation.Proofs.Replay

namespace Invalidation

namespace Run

variable {σ α β : Type} {J : Host σ → Prop}

-- From a host with `J`, `m` leaves one with `J`, whether it ends normally or by a fault.
def Stable (J : Host σ → Prop) (m : Run σ α) : Prop := ∀ h : Host σ, J h → J (m.exec h).2

theorem stable_pure (a : α) : Stable J (pure a : Run σ α) := fun _ hJ => hJ

theorem stable_throw (f : Fault) : Stable J (throw f : Run σ α) := fun _ hJ => hJ

theorem stable_lift (x : Except Fault α) : Stable J (lift x : Run σ α) := fun _ hJ => by
  rw [exec_lift]
  exact hJ

theorem stable_modify {f : Host σ → Host σ} (hf : ∀ h, J h → J (f h)) :
    Stable J (modify f : Run σ Unit) := hf

theorem Stable.bind_of {P : α → Prop} {m : Run σ α} {f : α → Run σ β} (hm : Stable J m)
    (hP : ∀ h a h', m.exec h = (.ok a, h') → P a) (hf : ∀ a, P a → Stable J (f a)) :
    Stable J (m >>= f) := fun h hJ => by
  have hm' := hm h hJ
  rw [exec_bind]
  split
  · next a h' heq =>
    rw [heq] at hm'
    exact hf a (hP h a h' heq) h' hm'
  · next e h' heq =>
    rw [heq] at hm'
    exact hm'

theorem Stable.bind {m : Run σ α} {f : α → Run σ β} (hm : Stable J m) (hf : ∀ a, Stable J (f a)) :
    Stable J (m >>= f) :=
  hm.bind_of (P := fun _ => True) (fun _ _ _ _ => trivial) fun a _ => hf a

theorem stable_lift_bind {x : Except Fault α} {f : α → Run σ β}
    (hf : ∀ a, x = .ok a → Stable J (f a)) : Stable J (lift x >>= f) := fun h hJ => by
  rw [exec_bind, exec_lift]
  cases x with
  | error e => exact hJ
  | ok a => exact hf a rfl h hJ

theorem stable_get_bind {f : Host σ → Run σ β} (hf : ∀ h, J h → Stable J (f h)) :
    Stable J (get >>= f) := fun h hJ => by
  rw [exec_bind, exec_get]
  exact hf h hJ h hJ

theorem stable_registry_bind {f : Registry → Run σ β} (hf : ∀ h : Host σ, J h → Stable J (f h.registry)) :
    Stable J (registry >>= f) := fun h hJ => by
  rw [exec_bind, exec_registry]
  exact hf h hJ h hJ

theorem Stable.tryCatch {m : Run σ α} {k : Fault → Run σ α} (hm : Stable J m)
    (hk : ∀ e, Stable J (k e)) : Stable J (tryCatch m k) := fun h hJ => by
  have hm' := hm h hJ
  rw [exec_tryCatch]
  split
  · next a h' heq =>
    rw [heq] at hm'
    exact hm'
  · next e h' heq =>
    rw [heq] at hm'
    exact hk e h' hm'

theorem Stable.andFinally {body : Run σ α} {last : Run σ Unit} (hb : Stable J body)
    (hl : Stable J last) : Stable J (andFinally body last) := fun h hJ => by
  rw [exec_andFinally_host]
  exact hl _ (hb h hJ)

end Run

namespace Script

open Run

-- A step that, if it reads as a command, reads as one with `P`.
def Performs (P : Command → Prop) (step : Json) : Prop := ∀ c, Command.ofJson step = .ok c → P c

-- The actions of a cast's rules, for whatever call they run, are steps that perform `P`.
def Cast.Acts (cast : Cast) (P : Command → Prop) : Prop :=
  ∀ e ∈ cast, ∀ r ∈ e.2.rules, ∀ vs, Json.loopItems r.actions = .ok vs → ∀ v ∈ vs, ∀ u d a,
    Action.ofJson u d v = .ok a → Performs P a.step

theorem stable_resolve {J : Host Stage → Prop} {cast : Cast} (who : Json) :
    Stable J (resolve cast who) := by
  unfold resolve
  split
  · exact stable_pure _
  · split
    · exact stable_throw _
    · split
      · exact stable_pure _
      · exact stable_throw _

theorem stable_journal {J : Host Stage → Prop} : Stable J journal := by
  refine stable_registry_bind fun r _ => ?_
  split
  · exact stable_pure _
  · exact stable_throw _

section Play

variable {J : Host Stage → Prop} (hown : ∀ h (s : Stage), J h → J { h with own := s })
include hown

theorem stable_note (j : Json) : Stable J (note j) := stable_modify fun h => hown h _

omit hown in
theorem stable_firedCount (key : Nat × Nat) : Stable J (firedCount key) :=
  stable_get_bind fun _ _ => stable_pure _

theorem stable_countFiring (key : Nat × Nat) : Stable J (countFiring key) :=
  (stable_firedCount key).bind fun _ => stable_modify fun h => hown h _

theorem stable_runActions {exec : Json → Play Json} (a : Actor) (u : Text) (d : Option Text) :
    ∀ vs : List Json, (∀ v ∈ vs, ∀ act, Action.ofJson u d v = .ok act → Stable J (exec act.step)) →
      Stable J (runActions exec a u d vs)
  | [], _ => stable_pure ()
  | v :: vs, hexec => by
    unfold runActions
    refine stable_lift_bind fun act hact => ?_
    have rest := stable_runActions a u d vs fun w hw => hexec w (List.mem_cons_of_mem _ hw)
    refine (Stable.tryCatch ((hexec v List.mem_cons_self act hact).bind fun r => ?_)
      fun f => ?_).bind fun _ => rest
    · split
      · exact stable_pure _
      · exact stable_note hown _
    · split
      · exact stable_note hown _
      · exact stable_throw f

theorem stable_runRules {exec : Json → Play Json} (a : Actor) (u : Text) (d : Option Text) :
    ∀ (i : Nat) (rs : List Rule), (∀ r ∈ rs, ∀ vs, Json.loopItems r.actions = .ok vs → ∀ v ∈ vs,
      ∀ act, Action.ofJson u d v = .ok act → Stable J (exec act.step)) →
      Stable J (runRules exec a u d i rs)
  | _, [], _ => stable_pure ()
  | i, r :: rs, hexec => by
    unfold runRules
    have rest := stable_runRules a u d (i + 1) rs fun r' hr' => hexec r' (List.mem_cons_of_mem _ hr')
    refine (stable_firedCount _).bind fun n => stable_lift_bind fun b _ => ?_
    cases b
    · simp only [Bool.false_eq_true, ite_false]
      exact rest
    · simp only [ite_true]
      exact (stable_countFiring hown _).bind fun _ => stable_lift_bind fun vs hvs =>
        (stable_runActions hown a u d vs (hexec r List.mem_cons_self vs hvs)).bind fun _ => rest

end Play

section Allowance

variable {ι : Type} {J : ι → Host Stage → Prop} {cast : Cast} {P : Command → Prop}
  (hown : ∀ i h (s : Stage), J i h → J i { h with own := s }) (hacts : cast.Acts P)
  (hperform : ∀ react : Reaction Stage, (∀ l u d i, Stable (J i) (react l u d)) →
    ∀ c, P c → ∀ i, Stable (J i) (perform cast react c))
include hown hacts hperform

-- By induction on the allowance: a reaction runs the steps of its rules one allowance down, and a
-- step the reactions its command sets off.
theorem stable_play : ∀ n, (∀ l u d i, Stable (J i) (react cast n l u d)) ∧
    ∀ step, Performs P step → ∀ i, Stable (J i) (exec cast n step)
  | 0 => ⟨fun _ _ _ _ => stable_throw _, fun _ _ _ => stable_throw _⟩
  | n + 1 => by
    obtain ⟨hreact, hexec⟩ := stable_play n
    refine ⟨fun l u d i => ?_, fun step hstep i => ?_⟩
    · simp only [react]
      cases ha : cast.actor? l with
      | none => exact stable_pure _
      | some a =>
        -- the listener is one of the cast's, so its actions perform `P`
        obtain ⟨e, he, rfl⟩ := Cast.mem_of_actor? ha
        refine stable_registry_bind fun _ _ => (stable_note (hown i) _).bind fun _ => ?_
        split
        · exact stable_pure _
        · exact stable_runRules (hown i) e.2 u d 0 e.2.rules fun r hr vs hvs v hv act hact =>
            hexec act.step (hacts e he r hr vs hvs v hv u d act hact) i
    · simp only [exec]
      exact stable_lift_bind fun c hc => hperform _ hreact c (hstep c hc) i

end Allowance

section Steps

variable {J : Host Stage → Prop} {cast : Cast}

theorem stable_attempt {step : Json} (hexec : Stable J (exec cast allowance step)) :
    Stable J (attempt cast step) := by
  unfold attempt
  refine Stable.tryCatch ?_ fun f => ?_
  · rw [← bind_pure_comp]
    exact hexec.bind fun _ => stable_pure _
  split
  · exact stable_throw _
  · exact stable_pure _

-- A run of steps keeps `J` when each of its steps does and clearing what a step logged does.
theorem stable_runSteps
    (hreset : ∀ h, J h → J { h with logs := #[], own := { h.own with notes := #[] } }) :
    ∀ steps, (∀ s ∈ steps, Stable J (exec cast allowance s)) → Stable J (runSteps cast steps)
  | [], _ => stable_pure _
  | step :: steps, hexec => by
    rw [runSteps_cons]
    refine Stable.bind (stable_modify hreset) fun _ => ?_
    refine Stable.bind (stable_attempt (hexec step List.mem_cons_self)) fun _ => ?_
    exact stable_get_bind fun _ _ =>
      (stable_runSteps hreset steps fun s hs => hexec s (List.mem_cons_of_mem _ hs)).bind fun _ =>
        stable_pure _

end Steps

end Script

end Invalidation
