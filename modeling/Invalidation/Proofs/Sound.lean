import Invalidation.Proofs.Wellformed
import Invalidation.Proofs.Run

namespace Invalidation

namespace Json

theorem relate_int (r : Relation) (a b : Int) :
    relate r (.int a) (.int b) = .ok (r.holds (compare a b)) := by
  have hc : Num.compare? (.int a) (.int b) = some (compare a b) := by
    simp only [Num.compare?, Num.exactLt, Num.exactEq, Num.fraction?]
    rcases Int.lt_trichotomy a b with h | h | h
    · simp [h, Int.compare_eq_lt.2 h]
    · subst h; simp
    · simp [h, Int.le_of_lt h, Int.compare_eq_gt.2 h]
  simp [relate, number?, hc]

-- The two comparisons with an integer that the registry's checks make.
theorem relate_lt_int (a b : Int) : relate .lt (.int a) (.int b) = .ok (decide (a < b)) := by
  simp only [relate_int, Relation.holds, Bool.beq_eq_decide_eq, Int.compare_eq_lt]

theorem relate_ge_int (a b : Int) : relate .ge (.int a) (.int b) = .ok (decide (b ≤ a)) := by
  simp only [relate_int, Relation.holds, bne, Bool.beq_eq_decide_eq, Int.compare_eq_lt, ← decide_not,
    Int.not_lt]

theorem relate_lt_int_eq_false {a b : Int} : relate .lt (.int a) (.int b) = .ok false ↔ b ≤ a := by
  simp [relate_lt_int]

theorem relate_ge_int_eq_false {a b : Int} : relate .ge (.int a) (.int b) = .ok false ↔ a < b := by
  simp [relate_ge_int]

-- Two numbers always compare, exactly or with not-a-number on one side.
theorem relate_of_number {r : Relation} {a b : Json} {x y : Num} (ha : a.number? = some x)
    (hb : b.number? = some y) : relate r a b = .ok ((x.compare? y).any r.holds) := by
  cases a <;> cases b <;> simp_all [relate, number?]

-- Only a number compares with an integer.
theorem number_of_relate_int {r : Relation} {a : Json} {k : Int} {b : Bool}
    (h : relate r a (.int k) = .ok b) : a.number?.isSome := by
  cases a <;> simp_all [relate, number?, unordered]

end Json

namespace Stopwatch

variable {w : Stopwatch}

theorem charge_ok (hc : w.responsible.isHashable = true) (d : Float) :
    ∃ ts, w.charge d = .ok { w with totals := ts } := by
  simp only [charge, hc]
  exact ⟨_, rfl⟩

-- Opening a frame only charges time and restarts the stopwatch.
theorem enter_ok (hc : w.responsible.isHashable = true) (now : Float) :
    ∃ ts, w.enter now = .ok { w with totals := ts, started := some now } := by
  unfold enter
  cases hs : w.started with
  | none => exact ⟨w.totals, rfl⟩
  | some s =>
    obtain ⟨ts, hts⟩ := charge_ok hc (now - s)
    exact ⟨ts, by simp [hts, bind, Except.bind, pure, Except.pure]⟩

-- Closing an inner frame changes nothing.
theorem exit_pos {k : Int} (hk : 0 < k) (now : Float) : w.exit now (.int k) = .ok w := by
  simp [exit, Json.relate_int, Int.compare_eq_gt.2 hk]
  rfl

-- Closing the outermost frame stops the stopwatch and makes no component responsible.
theorem exit_zero {s : Float} (hs : w.started = some s) (hc : w.responsible.isHashable = true)
    (now : Float) :
    ∃ ts, w.exit now (.int 0) =
      .ok { w with totals := ts, started := none, responsible := .str unattributed } := by
  obtain ⟨ts, hts⟩ := charge_ok hc (now - s)
  refine ⟨ts, ?_⟩
  simp [exit, Json.relate_int, hs, hts]
  rfl

end Stopwatch

namespace Registry

-- The guard lets a notification in at depth `d`.
def admitsAt (r : Registry) (d : Nat) : Prop :=
  ∀ m, r.maxDepth = some m → Json.relate .ge (.int d) m = .ok false

structure Sound (r : Registry) : Prop where
  graph : r.graph.Wellformed r.scheme
  traced : r.trace.number?.isSome
  kinds : ∀ o ∈ r.roster.observers, o.kind.isHashable = true
  limit : ∀ m, r.maxDepth = some m → Json.relate .lt m (.int 0) = .ok false
  chargeable : r.watch.responsible.isHashable = true
  running : r.depth = 0 ↔ r.watch.started = none
  idle : r.depth = 0 → r.watch.responsible = .str unattributed
  admitted : ∀ d, r.depth = d + 1 → r.admitsAt d

theorem sound_new {sc : Scheme} {m : Option Json} {t : Json} {j : Option Journal} {r : Registry}
    (h : Registry.new sc m t j = .ok r) : r.Sound := by
  obtain ⟨_, hm, h⟩ := Except.bind_eq_ok.1 h
  obtain ⟨_, ht, h⟩ := Except.bind_eq_ok.1 h
  cases h
  -- the trace level passed its check, so it is a number
  have traced : t.number?.isSome := by
    unfold checkTrace at ht
    obtain ⟨b, hb, -⟩ := Except.bind_eq_ok.1 ht
    exact Json.number_of_relate_int hb
  exact {
    graph := Graph.wellformed_empty
    traced := traced
    limit := by
      intro m' hm'
      obtain ⟨rfl, -⟩ := Option.filter_eq_some_iff.1 hm'
      simp only [checkMaxDepth] at hm
      obtain ⟨b, hb, hrest⟩ := Except.bind_eq_ok.1 hm
      cases b
      · exact hb
      · cases hrest
    kinds := fun _ h => by cases h
    chargeable := rfl
    running := by simp [Stopwatch.new]
    idle := fun _ => rfl
    admitted := fun _ h => by cases h }

-- Under a limit that is an integer, the guard lets in exactly the depths below it.
theorem admitsAt_int {r : Registry} {m : Int} (hm : r.maxDepth = some (.int m)) (d : Nat) :
    r.admitsAt d ↔ (d : Int) < m := by
  simp only [admitsAt, hm, Option.some.injEq, forall_eq', Json.relate_ge_int_eq_false]

-- No sound registry is deeper than an integer limit.
theorem Sound.depth_le {r : Registry} (hr : r.Sound) {m : Int} (hm : r.maxDepth = some (.int m)) :
    (r.depth : Int) ≤ m := by
  cases hd : r.depth with
  | zero => exact Json.relate_lt_int_eq_false.1 (hr.limit _ hm)
  | succ d =>
    have := (admitsAt_int hm d).1 (hr.admitted d hd)
    omega

-- What a listener may leave of a registry `r`.
structure Kept (r r' : Registry) : Prop where
  sound : r'.Sound
  scheme : r'.scheme = r.scheme
  maxDepth : r'.maxDepth = r.maxDepth
  depth : r'.depth = r.depth
  count : r.count ≤ r'.count

theorem Kept.refl {r : Registry} (hr : r.Sound) : Kept r r := ⟨hr, rfl, rfl, rfl, Nat.le_refl _⟩

theorem Kept.trans {r₁ r₂ r₃ : Registry} (h₁ : Kept r₁ r₂) (h₂ : Kept r₂ r₃) : Kept r₁ r₃ where
  sound := h₂.sound
  scheme := h₂.scheme.trans h₁.scheme
  maxDepth := h₂.maxDepth.trans h₁.maxDepth
  depth := h₂.depth.trans h₁.depth
  count := Nat.le_trans h₁.count h₂.count

end Registry

namespace Run

variable {σ α : Type}

-- A computation that, from a sound registry, leaves what a listener may leave, whether it ends
-- normally or by a fault.
def Keeps (m : Run σ α) : Prop :=
  ∀ h : Host σ, h.registry.Sound → Registry.Kept h.registry (m.exec h).2.registry

-- A computation that, from a sound registry, ends normally.
def Returns (m : Run σ α) : Prop := ∀ h : Host σ, h.registry.Sound → ∃ a, (m.exec h).1 = .ok a

end Run

end Invalidation
