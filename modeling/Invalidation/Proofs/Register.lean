import Invalidation.Proofs.Wellformed

namespace Invalidation

open Relation

namespace Scheme

theorem exists_str_of_isValid {sc : Scheme} {v : Json} (h : sc.isValid v = true) :
    ∃ s, v = .str s := by
  cases v <;> cases sc <;> simp_all [isValid]

end Scheme

namespace Graph

variable {g : Graph} {sc : Scheme} {u d a b : Text} {x y : Json}

theorem mem_allDownstream : a ∈ g.allDownstream b ↔ TransGen g.Edge b a :=
  Adjacency.mem_reachable

theorem checkEdge_str (hu : sc.isValid (.str u) = true) (hd : sc.isValid (.str d) = true) :
    checkEdge sc (.str u) (.str d) = .ok (u, d) :=
  checkEdge_eq_ok.2 ⟨Scheme.requireValid_str hu, Scheme.requireValid_str hd⟩

-- The upstream end is checked first, whatever the downstream end is.
theorem checkEdge_upstream_invalid (hx : sc.isValid x = false) :
    checkEdge sc x y = .error (.invalidIdentifier x (.invalid "upstream")) := by
  simp [checkEdge, Scheme.requireValid_eq_error hx, bind, Except.bind]

theorem checkEdge_downstream_invalid (hx : sc.isValid x = true) (hy : sc.isValid y = false) :
    checkEdge sc x y = .error (.invalidIdentifier y (.invalid "downstream")) := by
  obtain ⟨u, rfl⟩ := Scheme.exists_str_of_isValid hx
  simp [checkEdge, Scheme.requireValid_str hx, Scheme.requireValid_eq_error hy, bind, Except.bind]

theorem isValidEdge_str (hu : sc.isValid (.str u) = true) (hd : sc.isValid (.str d) = true) :
    g.isValidEdge sc (.str u) (.str d) = .ok (g.admits u d) := by
  simp [isValidEdge, checkEdge_str hu hd, bind, Except.bind, pure, Except.pure]

theorem register_upstream_invalid (hx : sc.isValid x = false) :
    g.register sc x y = .error (.invalidIdentifier x (.invalid "upstream")) := by
  simp [register, checkEdge_upstream_invalid hx, bind, Except.bind]

theorem register_downstream_invalid (hx : sc.isValid x = true) (hy : sc.isValid y = false) :
    g.register sc x y = .error (.invalidIdentifier y (.invalid "downstream")) := by
  simp [register, checkEdge_downstream_invalid hx hy, bind, Except.bind]

-- Between valid identifiers, the admission test decides, and a refusal is a self-dependency
-- before it is a cycle.
theorem register_str (hu : sc.isValid (.str u) = true) (hd : sc.isValid (.str d) = true) :
    g.register sc (.str u) (.str d) =
      if g.admits u d then .ok (g.link u d)
      else if u = d then .error (.selfDependency u)
      else .error (.cyclicDependency u d (g.cycleThrough u d)) := by
  simp only [register, checkEdge_str hu hd, bind, Except.bind]
  rfl

section Wellformed

variable (hg : g.Wellformed sc)
include hg

theorem Wellformed.register_self (hu : sc.isValid (.str u) = true) :
    g.register sc (.str u) (.str u) = .error (.selfDependency u) := by
  have : g.admits u u = false := by
    simpa using mt hg.admits_iff.1 (fun h => h.1 rfl)
  simp [register_str hu hu, this]

theorem Wellformed.register_cycle (hu : sc.isValid (.str u) = true)
    (hd : sc.isValid (.str d) = true) (hne : u ≠ d) (hdu : TransGen g.Edge d u) :
    g.register sc (.str u) (.str d) = .error (.cyclicDependency u d (g.cycleThrough u d)) := by
  have : g.admits u d = false := by
    simpa using mt hg.admits_iff.1 (fun h => h.2 hdu)
  simp [register_str hu hd, this, hne]

theorem Wellformed.register_link (hu : sc.isValid (.str u) = true)
    (hd : sc.isValid (.str d) = true) (hne : u ≠ d) (hnot : ¬TransGen g.Edge d u) :
    g.register sc (.str u) (.str d) = .ok (g.link u d) := by
  simp [register_str hu hd, hg.admits_iff.2 ⟨hne, hnot⟩]

-- The test for a new edge is the search downstream from its downstream end, and it admits the
-- edges that keep the graph acyclic.
theorem Wellformed.isValidEdge_eq (hu : sc.isValid (.str u) = true)
    (hd : sc.isValid (.str d) = true) :
    g.isValidEdge sc (.str u) (.str d) = .ok (decide (u ≠ d ∧ u ∉ g.allDownstream d)) := by
  have h : g.admits u d = true ↔ u ≠ d ∧ u ∉ g.allDownstream d := by
    rw [hg.admits_iff, mem_allDownstream]
  rw [isValidEdge_str hu hd]
  congr 1
  exact Bool.eq_iff_iff.2 (h.trans decide_eq_true_iff.symm)

theorem Wellformed.not_downstream_iff_acyclic_link :
    u ≠ d ∧ u ∉ g.allDownstream d ↔ ∀ x, ¬TransGen (g.link u d).Edge x x := by
  rw [acyclic_link_iff hg.acyclic, mem_allDownstream]

end Wellformed

theorem deregister_upstream_invalid (hx : sc.isValid x = false) :
    g.deregister sc x y = .error (.invalidIdentifier x (.invalid "upstream")) := by
  simp [deregister, checkEdge_upstream_invalid hx, bind, Except.bind]

theorem deregister_downstream_invalid (hx : sc.isValid x = true) (hy : sc.isValid y = false) :
    g.deregister sc x y = .error (.invalidIdentifier y (.invalid "downstream")) := by
  simp [deregister, checkEdge_downstream_invalid hx hy, bind, Except.bind]

theorem deregister_str (hu : sc.isValid (.str u) = true) (hd : sc.isValid (.str d) = true) :
    g.deregister sc (.str u) (.str d) = .ok (g.unlink u d) := by
  simp [deregister, checkEdge_str hu hd, bind, Except.bind, pure, Except.pure]

-- Deregistering valid identifiers one after another never fails.
theorem foldlM_deregister_str (hd : sc.isValid (.str d) = true) :
    ∀ (ups : List Text) (g : Graph), (∀ u ∈ ups, sc.isValid (.str u) = true) →
      ups.foldlM (fun g u => g.deregister sc (.str u) (.str d)) g =
        .ok (ups.foldl (fun g u => g.unlink u d) g)
  | [], _, _ => rfl
  | u :: ups, g, hups => by
    rw [List.foldlM_cons, deregister_str (hups u List.mem_cons_self) hd, List.foldl_cons]
    exact foldlM_deregister_str hd ups _ fun v hv => hups v (List.mem_cons_of_mem _ hv)

theorem deregisterAll_invalid (hy : sc.isValid y = false) :
    g.deregisterAll sc y = .error (.invalidIdentifier y (.invalid "downstream")) := by
  simp [deregisterAll, Scheme.requireValid_eq_error hy, bind, Except.bind]

-- Every edge into a valid identifier of a well-formed graph comes from a valid identifier, so
-- deregistering them one by one gets through.
theorem Wellformed.deregisterAll_ok (hg : g.Wellformed sc) (hd : sc.isValid (.str d) = true) :
    ∃ r, g.deregisterAll sc (.str d) = .ok r := by
  have hups : ∀ u ∈ (g.dependenciesOf d).toList, sc.isValid (.str u) = true :=
    fun u hu => (hg.valid u d ((hg.mirrored u d).2 hu)).1
  unfold Graph.deregisterAll
  rw [Scheme.requireValid_str hd]
  simp only [bind, Except.bind]
  split
  · exact ⟨_, rfl⟩
  · rw [foldlM_deregister_str hd _ g hups]
    exact ⟨_, rfl⟩

theorem isValidEdge_iff_keeps_acyclic (cs : List Change) (hu : sc.isValid (.str u) = true)
    (hd : sc.isValid (.str d) = true) :
    (ofChanges sc cs).isValidEdge sc (.str u) (.str d) =
        .ok (decide (u ≠ d ∧ u ∉ (ofChanges sc cs).allDownstream d)) ∧
      (u ≠ d ∧ u ∉ (ofChanges sc cs).allDownstream d ↔
        ∀ x, ¬TransGen ((ofChanges sc cs).link u d).Edge x x) :=
  have hg := wellformed_ofChanges sc cs
  ⟨hg.isValidEdge_eq hu hd, hg.not_downstream_iff_acyclic_link⟩

theorem isValidEdge_iff_keeps_acyclic_sample :
    let g := ofChanges .standard [.register (.str "MID:a") (.str "MID:b")]
    let u : Text := "MID:b"
    let d : Text := "MID:a"
    Scheme.standard.isValid (.str u) = true ∧ Scheme.standard.isValid (.str d) = true ∧
      g.isValidEdge .standard (.str u) (.str d) = .ok (decide (u ≠ d ∧ u ∉ g.allDownstream d)) ∧
      (u ≠ d ∧ u ∉ g.allDownstream d ↔ ∀ x, ¬TransGen (g.link u d).Edge x x) :=
  ⟨by decide, by decide,
    @isValidEdge_iff_keeps_acyclic .standard "MID:b" "MID:a" _ (by decide) (by decide)⟩

theorem register_fails_with_first_failed_check (cs : List Change) :
    let g := ofChanges sc cs
    ((sc.isValid x = false → g.register sc x y = .error (.invalidIdentifier x (.invalid "upstream"))) ∧
      (sc.isValid x = true → sc.isValid y = false →
        g.register sc x y = .error (.invalidIdentifier y (.invalid "downstream"))) ∧
      (sc.isValid (.str u) = true → g.register sc (.str u) (.str u) = .error (.selfDependency u)) ∧
      (sc.isValid (.str u) = true → sc.isValid (.str d) = true → u ≠ d →
        (¬g.Edge u d ∧ TransGen g.Edge d u ↔
          g.register sc (.str u) (.str d) = .error (.cyclicDependency u d (g.cycleThrough u d)))) ∧
      (sc.isValid (.str u) = true → sc.isValid (.str d) = true → u ≠ d →
        ¬(¬g.Edge u d ∧ TransGen g.Edge d u) →
        ∃ g', g.register sc (.str u) (.str d) = .ok g' ∧
          ∀ a b, g'.Edge a b ↔ g.Edge a b ∨ a = u ∧ b = d)) ∧
    ((sc.isValid x = false → g.deregister sc x y = .error (.invalidIdentifier x (.invalid "upstream"))) ∧
      (sc.isValid x = true → sc.isValid y = false →
        g.deregister sc x y = .error (.invalidIdentifier y (.invalid "downstream"))) ∧
      (sc.isValid x = true → sc.isValid y = true → ∃ g', g.deregister sc x y = .ok g')) ∧
    ((sc.isValid y = false →
        g.deregisterAll sc y = .error (.invalidIdentifier y (.invalid "downstream"))) ∧
      (sc.isValid y = true → ∃ r, g.deregisterAll sc y = .ok r)) := by
  intro g
  have hg : g.Wellformed sc := wellformed_ofChanges sc cs
  -- with both ends valid, the values are texts
  have texts : sc.isValid x = true → sc.isValid y = true →
      ∃ u d, x = .str u ∧ y = .str d := fun hx hy =>
    let ⟨u, hu⟩ := Scheme.exists_str_of_isValid hx
    let ⟨d, hd⟩ := Scheme.exists_str_of_isValid hy
    ⟨u, d, hu, hd⟩
  refine ⟨⟨register_upstream_invalid, register_downstream_invalid, hg.register_self, ?_, ?_⟩,
    ⟨deregister_upstream_invalid, deregister_downstream_invalid, ?_⟩,
    ⟨deregisterAll_invalid, ?_⟩⟩
  · intro hu hd hne
    constructor
    · rintro ⟨-, hdu⟩
      exact hg.register_cycle hu hd hne hdu
    · intro h
      -- only a refusal that is no self-dependency names a cycle
      have hadm : g.admits u d = false := by
        cases hadm : g.admits u d
        · rfl
        · simp [register_str hu hd, hadm] at h
      have hdu : TransGen g.Edge d u := by
        by_contra hnot
        simp [hg.admits_iff.2 ⟨hne, hnot⟩] at hadm
      exact ⟨fun hud => hg.acyclic d (hdu.tail hud), hdu⟩
  · intro hu hd hne hnot
    -- an edge the graph has is never reached back from its downstream end
    have hnot : ¬TransGen g.Edge d u := fun hdu =>
      hnot ⟨fun hud => hg.acyclic d (hdu.tail hud), hdu⟩
    exact ⟨g.link u d, hg.register_link hu hd hne hnot, fun a b => edge_link.trans (Or.comm)⟩
  · intro hx hy
    obtain ⟨u, d, rfl, rfl⟩ := texts hx hy
    exact ⟨_, deregister_str hx hy⟩
  · intro hy
    obtain ⟨d, rfl⟩ := Scheme.exists_str_of_isValid hy
    exact hg.deregisterAll_ok hy

end Graph

end Invalidation
