import Invalidation.Proofs.Queries

namespace Invalidation

namespace Graph

variable {g : Graph} {sc : Scheme} {u d x y : Text}

-- Registering succeeds only by linking the edge.
theorem register_eq_link (hu : sc.isValid (.str u) = true) (hd : sc.isValid (.str d) = true)
    {g' : Graph} (h : g.register sc (.str u) (.str d) = .ok g') : g' = g.link u d := by
  rw [register_str hu hd] at h
  split at h
  case isTrue => cases h; rfl
  case isFalse => split at h <;> cases h

section Wellformed

variable (hg : g.Wellformed sc)
include hg

theorem Wellformed.unlink_link (hl : (g.link u d).Wellformed sc) (h : ¬g.Edge u d) :
    (g.link u d).unlink u d = g := by
  refine (hl.unlink u d).ext hg fun x y => ?_
  rw [edge_unlink, edge_link]
  constructor
  · rintro ⟨⟨rfl, rfl⟩ | hxy, hne⟩
    · exact absurd ⟨rfl, rfl⟩ hne
    · exact hxy
  · intro hxy
    refine ⟨.inr hxy, ?_⟩
    rintro ⟨rfl, rfl⟩
    exact h hxy

theorem Wellformed.link_unlink (hl : ((g.unlink u d).link u d).Wellformed sc) (h : g.Edge u d) :
    (g.unlink u d).link u d = g := by
  refine hl.ext hg fun x y => ?_
  rw [edge_link, edge_unlink]
  constructor
  · rintro (⟨rfl, rfl⟩ | ⟨hxy, -⟩)
    · exact h
    · exact hxy
  · intro hxy
    by_cases he : x = u ∧ y = d
    · exact .inl he
    · exact .inr ⟨hxy, he⟩

-- With one of its edges taken out, an acyclic graph has no path back along it, so the edge is
-- admitted again.
theorem Wellformed.not_transGen_unlink (h : g.Edge u d) :
    ¬Relation.TransGen (g.unlink u d).Edge d u := fun hdu =>
  hg.acyclic d ((Relation.TransGen.mono (fun _ _ e => (edge_unlink.1 e).1) d u hdu).tail h)

end Wellformed

theorem edge_foldl_unlink (ups : List Text) (g : Graph) :
    (ups.foldl (fun g u => g.unlink u d) g).Edge x y ↔ g.Edge x y ∧ ¬(y = d ∧ x ∈ ups) := by
  induction ups generalizing g with
  | nil => simp
  | cons u ups ih =>
    rw [List.foldl_cons, ih, edge_unlink]
    constructor
    · rintro ⟨⟨hxy, hne⟩, hnot⟩
      refine ⟨hxy, ?_⟩
      rintro ⟨hy, hx⟩
      rcases List.mem_cons.1 hx with hx | hx
      · exact hne ⟨hx, hy⟩
      · exact hnot ⟨hy, hx⟩
    · rintro ⟨hxy, hnot⟩
      exact ⟨⟨hxy, fun ⟨hx, hy⟩ => hnot ⟨hy, List.mem_cons.2 (.inl hx)⟩⟩,
        fun ⟨hy, hx⟩ => hnot ⟨hy, List.mem_cons_of_mem _ hx⟩⟩

theorem Wellformed.foldl_unlink (hg : g.Wellformed sc) (ups : List Text) :
    (ups.foldl (fun g u => g.unlink u d) g).Wellformed sc := by
  induction ups generalizing g with
  | nil => exact hg
  | cons u ups ih => exact ih (hg.unlink u d)

-- Unlinking each dependency of `d` takes out exactly the edges into `d`, the dependencies being
-- the upstream ends of those edges.
theorem Wellformed.edge_unlink_dependencies (hg : g.Wellformed sc) :
    ((g.dependenciesOf d).toList.foldl (fun g u => g.unlink u d) g).Edge x y ↔
      g.Edge x y ∧ y ≠ d := by
  rw [edge_foldl_unlink]
  constructor
  · rintro ⟨hxy, hnot⟩
    exact ⟨hxy, fun hy => hnot ⟨hy, (hg.mirrored x d).1 (hy ▸ hxy)⟩⟩
  · rintro ⟨hxy, hy⟩
    exact ⟨hxy, fun h => hy h.1⟩

theorem Wellformed.dependenciesOf_unlink_dependencies (hg : g.Wellformed sc) :
    ((g.dependenciesOf d).toList.foldl (fun g u => g.unlink u d) g).dependenciesOf d =
      IdSet.empty := by
  have hg' : ((g.dependenciesOf d).toList.foldl (fun g u => g.unlink u d) g).Wellformed sc :=
    hg.foldl_unlink _
  refine IdSet.eq_empty_of_forall_not_mem fun x hx => ?_
  exact (hg.edge_unlink_dependencies.1 ((hg'.mirrored x d).2 hx)).2 rfl

-- Each dependency of a valid identifier of a well-formed graph is valid, so each deregistering
-- step unlinks one edge, and the report counts the dependencies.
theorem Wellformed.deregisterAll_eq (hg : g.Wellformed sc) (hd : sc.isValid (.str d) = true) :
    g.deregisterAll sc (.str d) =
      .ok ((g.dependenciesOf d).toList.foldl (fun g u => g.unlink u d) g,
        if (g.dependenciesOf d).toList.isEmpty then none
        else some ⟨.debug, .graph,
          s!"Deregistered {(g.dependenciesOf d).toList.length} upstream dependencies of " ++ d⟩) := by
  have hups : ∀ u ∈ (g.dependenciesOf d).toList, sc.isValid (.str u) = true :=
    fun u hu => (hg.valid u d ((hg.mirrored u d).2 hu)).1
  unfold Graph.deregisterAll
  rw [Scheme.requireValid_str hd]
  simp only [bind, Except.bind]
  split
  case isTrue hnil =>
    rw [List.isEmpty_iff.1 hnil]
    rfl
  case isFalse =>
    rw [foldlM_deregister_str hd _ g hups]
    rfl

theorem Wellformed.ncard_dependencies (hg : g.Wellformed sc) :
    {x | g.Edge x d}.ncard = (g.dependenciesOf d).toList.length := by
  rw [← IdSet.size, ← IdSet.ncard_mem]
  congr 1
  ext x
  exact hg.mirrored x d

theorem deregister_undoes_register (sc : Scheme) (cs : List Change) (u d : Text)
    (hu : sc.isValid (.str u) = true) (hd : sc.isValid (.str d) = true) (hne : u ≠ d) :
    let g := ofChanges sc cs
    (¬g.Edge u d → ∀ g', g.register sc (.str u) (.str d) = .ok g' →
      g'.deregister sc (.str u) (.str d) = .ok g) ∧
    (g.Edge u d → ∃ g', g.deregister sc (.str u) (.str d) = .ok g' ∧
      g'.register sc (.str u) (.str d) = .ok g) := by
  intro g
  have hg : g.Wellformed sc := wellformed_ofChanges sc cs
  refine ⟨fun hnot g' h => ?_, fun h => ⟨g.unlink u d, deregister_str hu hd, ?_⟩⟩
  · have hl : g'.Wellformed sc := hg.register h
    rw [register_eq_link hu hd h] at hl ⊢
    rw [deregister_str hu hd, hg.unlink_link hl hnot]
  · -- the edge taken out closes no cycle when it is put back
    have hgu := hg.unlink u d
    have hback := hg.not_transGen_unlink h
    have hl := hgu.link hu hd (hgu.admits_iff.2 ⟨hne, hback⟩)
    rw [hgu.register_link hu hd hne hback, hg.link_unlink hl h]

theorem deregister_undoes_register_sample :
    let sc := Scheme.standard
    let cs := [Change.register (.str "MID:a") (.str "MID:b")]
    let g := ofChanges sc cs
    sc.isValid (.str "MID:a") = true ∧ sc.isValid (.str "MID:c") = true ∧
      Text.ofString "MID:a" ≠ Text.ofString "MID:c" ∧
      (¬g.Edge "MID:a" "MID:c" → ∀ g', g.register sc (.str "MID:a") (.str "MID:c") = .ok g' →
        g'.deregister sc (.str "MID:a") (.str "MID:c") = .ok g) ∧
      (g.Edge "MID:a" "MID:c" → ∃ g', g.deregister sc (.str "MID:a") (.str "MID:c") = .ok g' ∧
        g'.register sc (.str "MID:a") (.str "MID:c") = .ok g) :=
  ⟨by decide, by decide, by decide,
    deregister_undoes_register .standard _ "MID:a" "MID:c" (by decide) (by decide) (by decide)⟩

theorem deregisterAll_keeps_other_edges (sc : Scheme) (cs : List Change) (d : Text)
    (hd : sc.isValid (.str d) = true) :
    let g := ofChanges sc cs
    let n := {x | g.Edge x d}.ncard
    ∃ g' line, g.deregisterAll sc (.str d) = .ok (g', line) ∧
      (∀ x y, g'.Edge x y ↔ g.Edge x y ∧ y ≠ d) ∧
      g'.dependenciesOfValue sc (.str d) = .ok IdSet.empty ∧
      line = if 0 < n then
        some ⟨.debug, .graph, s!"Deregistered {n} upstream dependencies of " ++ d⟩ else none := by
  intro g n
  have hg : g.Wellformed sc := wellformed_ofChanges sc cs
  refine ⟨_, _, hg.deregisterAll_eq hd, fun x y => hg.edge_unlink_dependencies, ?_, ?_⟩
  · rw [(checked_queries hd).2.1, hg.dependenciesOf_unlink_dependencies]
  · -- the line is there exactly when `d` had dependencies, and counts them
    rw [show n = (g.dependenciesOf d).toList.length from hg.ncard_dependencies]
    cases (g.dependenciesOf d).toList <;> rfl

theorem deregisterAll_keeps_other_edges_sample :
    let sc := Scheme.standard
    let g := ofChanges sc [.register (.str "MID:a") (.str "MID:b")]
    let n := {x | g.Edge x "MID:b"}.ncard
    sc.isValid (.str "MID:b") = true ∧
      ∃ g' line, g.deregisterAll sc (.str "MID:b") = .ok (g', line) ∧
        (∀ x y, g'.Edge x y ↔ g.Edge x y ∧ y ≠ "MID:b") ∧
        g'.dependenciesOfValue sc (.str "MID:b") = .ok IdSet.empty ∧
        line = if 0 < n then
          some ⟨.debug, .graph, s!"Deregistered {n} upstream dependencies of " ++ "MID:b"⟩
        else none :=
  ⟨by decide, deregisterAll_keeps_other_edges .standard _ "MID:b" (by decide)⟩

end Graph

end Invalidation
