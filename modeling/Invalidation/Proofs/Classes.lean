import Invalidation.Proofs.Frame
import Invalidation.Proofs.Register
import Invalidation.Proofs.Scripted

namespace Invalidation

namespace Scheme

variable {sc : Scheme} {s u : Text}

theorem classOf_codes (h : sc.isClassLevel u = false) :
    (sc.classOf u).codes = u.codes.takeWhile (· ≠ sc.separator) := by
  cases sc with
  | standard =>
    have hc : Identifier.isClassLevel u = false := h
    simp only [classOf, Identifier.classOf, hc, Bool.false_eq_true, ite_false,
      Identifier.splitAtDelimiter_fst]
    rfl
  | slash => rfl

-- An identifier without a separator is its own class, under either scheme.
theorem classOf_of_isClassLevel (h : sc.isClassLevel s = true) : sc.classOf s = s := by
  cases sc with
  | standard =>
    have hc : Identifier.isClassLevel s = true := h
    simp only [classOf, Identifier.classOf, hc, ite_true]
  | slash =>
    have hsep : 0x2F ∉ s.codes := by simpa [isClassLevel, Text.contains, separator] using h
    show Text.mk (s.codes.takeWhile (· ≠ 0x2F)) = s
    rw [List.takeWhile_eq_self_iff.2 fun c hc => by simpa using fun he : c = 0x2F => hsep (he ▸ hc)]

theorem isClassLevel_classOf (h : sc.isClassLevel u = false) :
    sc.isClassLevel (sc.classOf u) = true := by
  have hsep : sc.separator ∉ (sc.classOf u).codes := fun hm => by
    rw [classOf_codes h] at hm
    simpa using List.mem_takeWhile_imp hm
  simpa [isClassLevel, Text.contains] using hsep

theorem classOf_classOf (h : sc.isClassLevel u = false) : sc.classOf (sc.classOf u) = sc.classOf u :=
  classOf_of_isClassLevel (isClassLevel_classOf h)

theorem classOf_ne (h : sc.isClassLevel u = false) : sc.classOf u ≠ u := fun he => by
  have hcl := isClassLevel_classOf h
  rw [he, h] at hcl
  cases hcl

-- The class of a valid instance is valid under the standard scheme, which keeps the mark and the
-- class name, and under the slash scheme exactly when it is not blank.
theorem isValid_classOf (hv : sc.isValid (.str u) = true) (hc : sc.isClassLevel u = false)
    (hmeet : sc = .standard ∨ Text.isBlankText (sc.classOf u) = false) :
    sc.isValid (.str (sc.classOf u)) = true := by
  cases sc with
  | standard => exact standard_isValid_classOf hv hc
  | slash =>
    have hblank : Text.isBlankText (slash.classOf u) = false := by simpa using hmeet
    simp [isValid, hblank]

-- The component of a valid identifier is a class, valid when the class is.
theorem isValid_componentOf (hv : sc.isValid (.str s) = true)
    (hmeet : sc = .standard ∨ Text.isBlankText (sc.componentOf s) = false) :
    sc.isValid (.str (sc.componentOf s)) = true ∧ sc.isClassLevel (sc.componentOf s) = true := by
  cases hc : sc.isClassLevel s
  · have hcomp : sc.componentOf s = sc.classOf s := by simp [componentOf, hc]
    rw [hcomp] at hmeet ⊢
    exact ⟨isValid_classOf hv hc hmeet, isClassLevel_classOf hc⟩
  · rw [componentOf, if_pos hc]
    exact ⟨hv, hc⟩

end Scheme

namespace Call

-- A run whose calls did not all return ended with the fault of its last call.
theorem Ends.failed {α : Type} {cs : List Call} {res : Except Fault α} (h : Ends cs res)
    (hno : ¬∀ c ∈ cs, c.outcome = .ok ()) : ∃ c ∈ cs, ∃ f, c.outcome = .error f ∧ res = .error f := by
  rcases eq_nil_or_append_last cs with rfl | ⟨pre, c, rfl⟩
  · exact absurd (fun c hc => by cases hc) hno
  · have pre_ok : ∀ c ∈ pre, c.outcome = .ok () := fun c hc => h.1 c (by simpa using hc)
    cases hc : c.outcome with
    | ok _ =>
      refine absurd (fun c' hc' => ?_) hno
      rcases List.mem_append.1 hc' with h' | h'
      · exact pre_ok c' h'
      · rw [List.mem_singleton.1 h', hc]
    | error f => exact ⟨c, by simp, f, hc, h.2 c f List.getLast?_concat hc⟩

end Call

namespace Run

section Frame

variable {σ : Type} {react : Reaction σ} (hk : ∀ l u d, Keeps (react l u d))
  {h : Host (σ × List Call)} {v : Json} {u : Text}
include hk

-- A notification the guard lets in fails only with the fault of a call it made, unless it stops at
-- the class of an instance that is not valid.
theorem notify_fault_of_call (hs : h.registry.Sound)
    (hv : h.registry.scheme.requireValid v "upstream" = .ok u)
    (ha : h.registry.admitsAt h.registry.depth)
    (hclass : h.registry.roster.primary = none ∨ h.registry.scheme.isClassLevel u = true ∨
      h.registry.scheme.isValid (.str (h.registry.scheme.classOf u)) = true) :
    ∃ cs, ((notify (tap react) v).exec h).2.own.2 = h.own.2 ++ cs ∧
      ∀ f, ((notify (tap react) v).exec h).1 = .error f → ∃ c ∈ cs, c.outcome = .error f := by
  obtain ⟨c₁, c₂, c₃, recorded, -, -, -, -, ends, ph⟩ := made_notify hk hs hv ha
  refine ⟨c₁ ++ c₂ ++ c₃, recorded, fun f hf => ?_⟩
  by_cases hok : ∀ c ∈ c₁ ++ c₂ ++ c₃, c.outcome = .ok ()
  · rw [ph.returned hok hclass] at hf
    cases hf
  · obtain ⟨c, hc, f', hf', hres⟩ := ends.failed hok
    rw [hres] at hf
    cases hf
    exact ⟨c, hc, hf'⟩

end Frame

end Run

theorem instance_class_is_valid_class (sc : Scheme) (u : Text) (hv : sc.isValid (.str u) = true)
    (hc : sc.isClassLevel u = false)
    (hmeet : sc = .standard ∨ Text.isBlankText (sc.classOf u) = false) :
    sc.isValid (.str (sc.classOf u)) = true ∧ sc.isClassLevel (sc.classOf u) = true ∧
      sc.classOf (sc.classOf u) = sc.classOf u ∧ sc.classOf u ≠ u ∧
      (∀ {σ : Type} (react : Run.Reaction σ), (∀ l u d, Run.Keeps (react l u d)) →
        ∀ (h : Host (σ × List Call)) (v : Json), h.registry.Sound → h.registry.scheme = sc →
          h.registry.scheme.requireValid v "upstream" = .ok u →
          h.registry.admitsAt h.registry.depth →
          ∃ cs, ((Run.notify (Run.tap react) v).exec h).2.own.2 = h.own.2 ++ cs ∧
            ∀ f, ((Run.notify (Run.tap react) v).exec h).1 = .error f →
              ∃ c ∈ cs, c.outcome = .error f) ∧
      (∀ (cast : Script.Cast), (∀ e ∈ cast, e.2.listener.kind.IsText) →
        ∀ (n : Nat) (h : Host (Script.Stage × List Call)) (v : Json), h.registry.Sound →
          h.registry.scheme = sc → h.registry.scheme.requireValid v "upstream" = .ok u →
          h.registry.admitsAt h.registry.depth →
          ∃ cs, ((Run.notify (Run.tap (Script.react cast n)) v).exec h).2.own.2 = h.own.2 ++ cs ∧
            ∀ f, ((Run.notify (Run.tap (Script.react cast n)) v).exec h).1 = .error f →
              ∃ c ∈ cs, c.outcome = .error f) ∧
      (∀ (cs : List Graph.Change) (x y : Text), (Graph.ofChanges sc cs).Edge x y →
        ∀ z ∈ [x, y], (sc = .standard ∨ Text.isBlankText (sc.componentOf z) = false) →
          sc.isValid (.str (sc.componentOf z)) = true ∧
            sc.isClassLevel (sc.componentOf z) = true) := by
  have hclass := Scheme.isValid_classOf hv hc hmeet
  -- the class the notification checks is the valid class of `u`
  refine ⟨hclass, Scheme.isClassLevel_classOf hc, Scheme.classOf_classOf hc, Scheme.classOf_ne hc,
    fun _ hk h _ hs hsc hv' ha => Run.notify_fault_of_call hk hs hv' ha (.inr (.inr (hsc ▸ hclass))),
    fun cast hcast n h _ hs hsc hv' ha => Run.notify_fault_of_call (Script.keeps_play hcast n).1 hs
      hv' ha (.inr (.inr (hsc ▸ hclass))),
    fun cs x y hxy z hz hz' => ?_⟩
  -- both ends of an edge are valid
  have hends := (Graph.wellformed_ofChanges sc cs).valid x y hxy
  rcases List.mem_pair.1 hz with rfl | rfl
  · exact Scheme.isValid_componentOf hends.1 hz'
  · exact Scheme.isValid_componentOf hends.2 hz'

theorem instance_class_is_valid_class_standard :
    let sc := Scheme.standard
    let u : Text := "MID:entity#Foo"
    sc.isValid (.str u) = true ∧ sc.isClassLevel u = false ∧
      (sc = .standard ∨ Text.isBlankText (sc.classOf u) = false) ∧
      sc.isValid (.str (sc.classOf u)) = true ∧ sc.isClassLevel (sc.classOf u) = true ∧
      sc.classOf (sc.classOf u) = sc.classOf u ∧ sc.classOf u ≠ u ∧
      (∀ {σ : Type} (react : Run.Reaction σ), (∀ l u d, Run.Keeps (react l u d)) →
        ∀ (h : Host (σ × List Call)) (v : Json), h.registry.Sound → h.registry.scheme = sc →
          h.registry.scheme.requireValid v "upstream" = .ok u →
          h.registry.admitsAt h.registry.depth →
          ∃ cs, ((Run.notify (Run.tap react) v).exec h).2.own.2 = h.own.2 ++ cs ∧
            ∀ f, ((Run.notify (Run.tap react) v).exec h).1 = .error f →
              ∃ c ∈ cs, c.outcome = .error f) ∧
      (∀ (cast : Script.Cast), (∀ e ∈ cast, e.2.listener.kind.IsText) →
        ∀ (n : Nat) (h : Host (Script.Stage × List Call)) (v : Json), h.registry.Sound →
          h.registry.scheme = sc → h.registry.scheme.requireValid v "upstream" = .ok u →
          h.registry.admitsAt h.registry.depth →
          ∃ cs, ((Run.notify (Run.tap (Script.react cast n)) v).exec h).2.own.2 = h.own.2 ++ cs ∧
            ∀ f, ((Run.notify (Run.tap (Script.react cast n)) v).exec h).1 = .error f →
              ∃ c ∈ cs, c.outcome = .error f) ∧
      (∀ (cs : List Graph.Change) (x y : Text), (Graph.ofChanges sc cs).Edge x y →
        ∀ z ∈ [x, y], (sc = .standard ∨ Text.isBlankText (sc.componentOf z) = false) →
          sc.isValid (.str (sc.componentOf z)) = true ∧
            sc.isClassLevel (sc.componentOf z) = true) :=
  ⟨by decide, by decide, .inl rfl,
    instance_class_is_valid_class .standard "MID:entity#Foo" (by decide) (by decide) (.inl rfl)⟩

theorem slash_blank_class_refused :
    Scheme.slash.isValid (.str "/x") = true ∧ Scheme.slash.isClassLevel "/x" = false ∧
      Scheme.slash.isValid (.str (Scheme.slash.classOf "/x")) = false ∧
      (Graph.ofChanges .slash [.register (.str "/x") (.str "y")]).Edge "/x" "y" ∧
      Scheme.slash.isValid (.str (Scheme.slash.componentOf "/x")) = false ∧
      ((Run.notify (fun _ _ _ => pure ()) (.str "/x")).exec
        (⟨⟨.slash, .empty, ⟨some ⟨0, .str "p", true⟩, []⟩, .new, none, some (.int 256), .int 0, 0, 0⟩,
          0.0, #[], ()⟩ : Host Unit)).1 =
        .error (.invalidIdentifier (.str "") (.invalid "upstream")) := by
  refine ⟨by decide, by decide, by decide, ?_, by decide, rfl⟩
  -- the empty graph admits the edge, having no path back
  have hnot : ¬Relation.TransGen Graph.empty.Edge "y" "/x" := fun h => by
    obtain ⟨_, h, -⟩ := Relation.TransGen.head'_iff.1 h
    simp [Graph.Edge, Graph.downstreamOf, Graph.empty] at h
  have hreg := (Graph.wellformed_empty : Graph.empty.Wellformed .slash).register_link
    (by decide) (by decide) (by decide) hnot
  show (Graph.apply .slash Graph.empty (.register (.str "/x") (.str "y"))).Edge "/x" "y"
  simp only [Graph.apply, hreg]
  exact Graph.edge_link.2 (.inl ⟨rfl, rfl⟩)

end Invalidation
