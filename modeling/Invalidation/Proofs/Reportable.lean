import Invalidation.Proofs.Charges
import Invalidation.Proofs.Stable

namespace Invalidation

-- A document that is text.
def Json.IsText (j : Json) : Prop := ∃ k, j = .str k

theorem Json.isHashable_of_isText {j : Json} (h : j.IsText) : j.isHashable = true := by
  obtain ⟨k, rfl⟩ := h
  rfl

namespace Roster

-- The registered listeners have text kinds.
structure Textual (ro : Roster) : Prop where
  primary : ∀ p, ro.primary = some p → p.kind.IsText
  observers : ∀ o ∈ ro.observers, o.kind.IsText

variable {ro ro' : Roster} {o : Option Listener} {line : Option LogLine}

-- What a registration may change: the primary consumer or the observers gain the listener
-- registered, and the line it logs is the listeners'.
theorem add_spec (hadd : ro.add o = .ok (ro', line)) :
    ∃ l, o = some l ∧ (∀ p, ro'.primary = some p → ro.primary = some p ∨ p = l) ∧
      (∀ x ∈ ro'.observers, x ∈ ro.observers ∨ x = l) ∧
      ∀ m, line = some m → m.source = .listeners := by
  cases o with
  | none => cases hadd
  | some l =>
    refine ⟨l, rfl, ?_⟩
    simp only [Roster.add] at hadd
    repeat' split at hadd
    all_goals cases hadd
    all_goals simp_all

-- A removal only takes listeners away.
theorem remove_spec (hrem : ro.remove o = .ok (ro', line)) :
    (∀ p, ro'.primary = some p → ro.primary = some p) ∧ (∀ x ∈ ro'.observers, x ∈ ro.observers) ∧
      ∀ m, line = some m → m.source = .listeners := by
  cases o with
  | none => cases hrem
  | some l =>
    simp only [Roster.remove] at hrem
    repeat' split at hrem
    all_goals cases hrem
    all_goals simp_all

theorem Textual.add (h : ro.Textual) (ho : ∀ l, o = some l → l.kind.IsText)
    (hadd : ro.add o = .ok (ro', line)) : ro'.Textual := by
  obtain ⟨l, rfl, hprimary, hobservers, -⟩ := add_spec hadd
  have hl := ho l rfl
  refine ⟨fun p hp => ?_, fun x hx => ?_⟩
  · rcases hprimary p hp with hp | rfl
    · exact h.primary p hp
    · exact hl
  · rcases hobservers x hx with hx | rfl
    · exact h.observers x hx
    · exact hl

theorem Textual.remove (h : ro.Textual) (hrem : ro.remove o = .ok (ro', line)) : ro'.Textual :=
  ⟨fun p hp => h.primary p ((remove_spec hrem).1 p hp),
    fun x hx => h.observers x ((remove_spec hrem).2.1 x hx)⟩

end Roster

namespace Stopwatch

-- The responsible component and every component charged are text.
structure Textual (w : Stopwatch) : Prop where
  responsible : w.responsible.IsText
  totals : ∀ e ∈ w.totals, e.1.IsText

-- Crediting a component keeps the components charged, and adds that one at most.
theorem mem_credit {ts : List (Json × Float)} {c : Json} {d : Float} {e : Json × Float}
    (he : e ∈ credit ts c d) : e.1 = c ∨ ∃ e' ∈ ts, e'.1 = e.1 := by
  unfold credit at he
  split at he
  · obtain ⟨e', he', rfl⟩ := List.mem_map.1 he
    split
    · exact .inr ⟨e', he', rfl⟩
    · exact .inr ⟨e', he', rfl⟩
  · rcases List.mem_append.1 he with he | he
    · exact .inr ⟨e, he, rfl⟩
    · rw [List.mem_singleton.1 he]
      exact .inl rfl

variable {w w' : Stopwatch}

theorem Textual.charge (hw : w.Textual) (d : Float) :
    w.charge d = .ok { w with totals := credit w.totals w.responsible d } ∧
      Textual { w with totals := credit w.totals w.responsible d } := by
  refine ⟨charge_eq (Json.isHashable_of_isText hw.responsible) d, hw.responsible, fun e he => ?_⟩
  rcases mem_credit he with he | ⟨e', he', heq⟩
  · rw [he]
    exact hw.responsible
  · rw [← heq]
    exact hw.totals e' he'

theorem Textual.enter (hw : w.Textual) {now : Float} (he : w.enter now = .ok w') : w'.Textual := by
  unfold Stopwatch.enter at he
  cases hs : w.started with
  | none =>
    rw [hs] at he
    cases he
    exact ⟨hw.responsible, hw.totals⟩
  | some s =>
    simp only [hs, (hw.charge (now - s)).1] at he
    cases he
    exact ⟨hw.responsible, (hw.charge (now - s)).2.totals⟩

theorem Textual.exit (hw : w.Textual) {now : Float} {remaining : Json}
    (he : w.exit now remaining = .ok w') : w'.Textual := by
  unfold Stopwatch.exit at he
  obtain ⟨b, -, he⟩ := Except.bind_eq_ok.1 he
  cases b
  · cases hs : w.started with
    | none =>
      rw [hs] at he
      cases he
      exact hw
    | some s =>
      rw [hs] at he
      obtain ⟨w₁, hw₁, he⟩ := Except.bind_eq_ok.1 he
      rw [(hw.charge (now - s)).1] at hw₁
      cases hw₁
      cases he
      exact ⟨⟨_, rfl⟩, (hw.charge (now - s)).2.totals⟩
  · cases he
    exact hw

end Stopwatch

namespace Registry

-- What a report checks of a registry, as the registry keeps it.
structure Reportable (r : Registry) : Prop where
  roster : r.roster.Textual
  watch : r.watch.Textual
  trace : Json.relate .lt r.trace (.int 0) = .ok false
  limit : ∀ m, r.maxDepth = some m → Json.relate .lt m (.int 0) = .ok false ∧ m.isTruthy = true

variable {r : Registry}

theorem Reportable.traced (hr : r.Reportable) : r.trace.number?.isSome :=
  Json.number_of_relate_int hr.trace

end Registry

namespace Run

variable {σ α β : Type} {I : Registry → Prop}

-- A computation keeps `I` of the registry: from a registry with `I` it leaves one with `I`, whether
-- it ends normally or by a fault.
def Preserves (I : Registry → Prop) (m : Run σ α) : Prop :=
  ∀ h : Host σ, I h.registry → I (m.exec h).2.registry

theorem preserves_modify {f : Host σ → Host σ} (hf : ∀ h, (f h).registry = h.registry) :
    Preserves I (modify f : Run σ Unit) :=
  stable_modify fun h hI => (hf h).symm ▸ hI

-- A bind whose continuation keeps `I` only for the values the computation can give.
theorem Preserves.bind_of {P : α → Prop} {m : Run σ α} {f : α → Run σ β} (hm : Preserves I m)
    (hP : ∀ h a h', m.exec h = (.ok a, h') → P a) (hf : ∀ a, P a → Preserves I (f a)) :
    Preserves I (m >>= f) :=
  Stable.bind_of hm hP hf

theorem Preserves.bind {m : Run σ α} {f : α → Run σ β} (hm : Preserves I m)
    (hf : ∀ a, Preserves I (f a)) : Preserves I (m >>= f) :=
  Stable.bind hm hf

theorem Preserves.tryCatch {m : Run σ α} {k : Fault → Run σ α} (hm : Preserves I m)
    (hk : ∀ e, Preserves I (k e)) : Preserves I (tryCatch m k) :=
  Stable.tryCatch hm hk

theorem Preserves.andFinally {body : Run σ α} {last : Run σ Unit} (hb : Preserves I body)
    (hl : Preserves I last) : Preserves I (andFinally body last) :=
  Stable.andFinally hb hl

section Notify

variable {react : Reaction σ}

variable (hreact : ∀ l u d, Preserves Registry.Reportable (react l u d))
include hreact

end Notify

end Run

namespace Registry

theorem relate_of_checkTrace {level : Json} (h : checkTrace level = .ok ()) :
    Json.relate .lt level (.int 0) = .ok false := by
  obtain ⟨b, hb, hrest⟩ := Except.bind_eq_ok.1 h
  cases b
  · exact hb
  · cases hrest

end Registry

namespace Script

open Run

section Play

variable {I : Registry → Prop} {cast : Cast}
  (hperform : ∀ react : Reaction Stage, (∀ l u d, Preserves I (react l u d)) →
    ∀ c, Preserves I (perform cast react c))
include hperform

end Play

section Reportable

variable {cast : Cast} (hcast : ∀ e ∈ cast, e.2.listener.kind.IsText)

theorem Cast.mem_of_find? {name : Json} {a : Actor} (h : cast.find? name = some a) :
    ∃ e ∈ cast, e.2 = a := by
  simp only [Cast.find?, Option.map_eq_some_iff] at h
  obtain ⟨e, he, rfl⟩ := h
  exact ⟨e, List.mem_of_find?_eq_some he, rfl⟩

include hcast

-- A listener a command names is one of the script's, so its kind is text.
theorem resolve_isText (who : Json) {h h' : Host Stage} {o : Option Listener}
    (hres : (resolve cast who).exec h = (.ok o, h')) : ∀ l, o = some l → l.kind.IsText := by
  intro l hl
  subst hl
  unfold resolve at hres
  split at hres
  · cases hres
  · split at hres
    · cases hres
    · split at hres
      · next a ha =>
        obtain ⟨e, he, rfl⟩ := Cast.mem_of_find? ha
        cases hres
        exact hcast e he
      · cases hres

end Reportable

end Script

end Invalidation