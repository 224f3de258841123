import Invalidation.Proofs.Canonical
import Invalidation.Proofs.Register
import Invalidation.Registry.Report

namespace Invalidation

namespace Graph

variable {g : Graph} {sc : Scheme} {u d x : Text} {e : Text × Text}

theorem mem_edges : e ∈ g.edges ↔ g.Edge e.1 e.2 := by
  obtain ⟨a, b⟩ := e
  simp only [edges, List.mem_flatMap, List.mem_map, Edge, downstreamOf, Adjacency.mem_find_iff]
  constructor
  · rintro ⟨⟨k, s⟩, he, y, hy, hky⟩
    cases hky
    exact ⟨s, he, hy⟩
  · rintro ⟨s, he, hb⟩
    exact ⟨(a, s), he, b, hb, rfl⟩

-- The edges come ordered by upstream end, the entries of the index being ordered by key, and then
-- by downstream end, each set being ordered.
theorem edges_sorted (g : Graph) : g.edges.Pairwise (Prod.Lex (· < ·) (· < ·)) := by
  rw [edges, List.pairwise_flatMap]
  constructor
  · intro en _
    rw [List.pairwise_map]
    exact en.2.sorted.imp fun h => Prod.Lex.right _ h
  · apply g.down.sorted.imp
    intro en en' hk a ha b hb
    obtain ⟨y, _, rfl⟩ := List.mem_map.1 ha
    obtain ⟨z, _, rfl⟩ := List.mem_map.1 hb
    exact Prod.Lex.left _ _ hk

theorem lex_asymm {a b : Text × Text} (h : Prod.Lex (· < ·) (· < ·) a b) :
    ¬Prod.Lex (· < ·) (· < ·) b a := by
  rw [Prod.lex_def] at h ⊢
  rintro (h' | ⟨he', h'⟩)
  · rcases h with h | ⟨he, -⟩
    · exact Text.lt_asymm h h'
    · exact Text.lt_irrefl _ (he ▸ h')
  · rcases h with h | ⟨-, h⟩
    · exact Text.lt_irrefl _ (he' ▸ h)
    · exact Text.lt_asymm h h'

theorem edges_nodup (g : Graph) : g.edges.Nodup :=
  nodup_of_pairwise_asymm (fun _ _ => lex_asymm) g.edges_sorted

-- The size adds up the downstream sets, whose members the list of edges spells out.
theorem size_eq_length_edges (g : Graph) : g.size = g.edges.length := by
  unfold size Adjacency.total edges
  induction g.down.entries with
  | nil => rfl
  | cons en es ih =>
    rw [List.foldr_cons, ih, List.flatMap_cons, List.length_append, List.length_map]
    rfl

theorem size_eq_ncard (g : Graph) : g.size = {e : Text × Text | g.Edge e.1 e.2}.ncard := by
  have hs : {e : Text × Text | g.Edge e.1 e.2} = {e | e ∈ g.edges} := by
    ext e
    exact mem_edges.symm
  rw [hs, ncard_mem_of_nodup g.edges_nodup, size_eq_length_edges]

instance (g : Graph) (u d : Text) : Decidable (g.Edge u d) :=
  inferInstanceAs (Decidable (d ∈ g.downstreamOf u))

theorem hasEdge_eq_decide : g.hasEdge u d = decide (g.Edge u d) := by
  rw [Bool.eq_iff_iff, decide_eq_true_iff, hasEdge, IdSet.contains_iff]
  exact Iff.rfl

section Wellformed

variable (hg : g.Wellformed sc)
include hg

-- The keys of the downstream index are the upstream ends, those of the other index the
-- downstream ends.
theorem Wellformed.mem_identifiers : x ∈ g.identifiers ↔ ∃ y, g.Edge x y ∨ g.Edge y x := by
  rw [identifiers, IdSet.mem_ofList, List.mem_append, Adjacency.mem_keys hg.down_populated,
    Adjacency.mem_keys hg.up_populated]
  constructor
  · rintro (⟨y, hy⟩ | ⟨y, hy⟩)
    · exact ⟨y, .inl hy⟩
    · exact ⟨y, .inr ((hg.mirrored y x).2 hy)⟩
  · rintro ⟨y, hy | hy⟩
    · exact .inl ⟨y, hy⟩
    · exact .inr ⟨y, (hg.mirrored y x).1 hy⟩

theorem Wellformed.identifiers_size :
    g.identifiers.size = {x | ∃ y, g.Edge x y ∨ g.Edge y x}.ncard := by
  rw [← IdSet.ncard_mem]
  congr 1
  ext x
  exact hg.mem_identifiers

theorem Wellformed.toJson_eq :
    g.toJson = .obj [("edge_count", .int {e : Text × Text | g.Edge e.1 e.2}.ncard),
      ("identifier_count", .int {x | ∃ y, g.Edge x y ∨ g.Edge y x}.ncard),
      ("edges", .arr (g.edges.map edgeJson))] := by
  rw [toJson, size_eq_ncard, hg.identifiers_size]

-- An identifier that is no key of the downstream index has nothing downstream, so the unchecked
-- lookup answers for every pair of texts.
theorem Wellformed.hasEdgeValue_str : g.hasEdgeValue (.str u) (.str d) = .ok (decide (g.Edge u d)) := by
  simp only [hasEdgeValue]
  split
  case isTrue => rw [hasEdge_eq_decide]
  case isFalse hk =>
    have hu : ¬∃ y, y ∈ g.down.find u := by
      rw [← Adjacency.mem_keys hg.down_populated]
      simpa using hk
    simp only [Except.ok.injEq]
    exact (decide_eq_false fun h => hu ⟨d, h⟩).symm

theorem Wellformed.mem_allDownstream_iff : x ∈ g.allDownstream u ↔ u ∈ g.allDependencies x := by
  rw [mem_allDownstream, mem_allDependencies hg.mirrored]

theorem Wellformed.not_mem_allDownstream_self : u ∉ g.allDownstream u := by
  rw [mem_allDownstream]
  exact hg.acyclic u

end Wellformed

-- The checked queries pass a valid identifier on to the unchecked ones.
theorem checked_queries (hv : sc.isValid (.str u) = true) :
    g.downstreamOfValue sc (.str u) = .ok (g.downstreamOf u) ∧
      g.dependenciesOfValue sc (.str u) = .ok (g.dependenciesOf u) ∧
      g.allDownstreamOfValue sc (.str u) = .ok (g.allDownstream u) ∧
      g.allDependenciesOfValue sc (.str u) = .ok (g.allDependencies u) := by
  simp [downstreamOfValue, dependenciesOfValue, allDownstreamOfValue, allDependenciesOfValue,
    Scheme.requireValid_str hv, bind, Except.bind, pure, Except.pure]

theorem queries_read_edges (sc : Scheme) (cs : List Change) :
    let g := ofChanges sc cs
    (∀ v, sc.isValid (.str v) = true →
      g.downstreamOfValue sc (.str v) = .ok (g.downstreamOf v) ∧
        g.dependenciesOfValue sc (.str v) = .ok (g.dependenciesOf v) ∧
        g.allDownstreamOfValue sc (.str v) = .ok (g.allDownstream v) ∧
        g.allDependenciesOfValue sc (.str v) = .ok (g.allDependencies v)) ∧
    (∀ u y, y ∈ g.downstreamOf u ↔ g.Edge u y) ∧
    (∀ x d, x ∈ g.dependenciesOf d ↔ g.Edge x d) ∧
    (∀ u d, g.hasEdgeValue (.str u) (.str d) = .ok (decide (g.Edge u d))) ∧
    g.size = {e : Text × Text | g.Edge e.1 e.2}.ncard ∧
    (∀ e, e ∈ g.edges ↔ g.Edge e.1 e.2) ∧ g.edges.Pairwise (Prod.Lex (· < ·) (· < ·)) ∧
    (∀ x, x ∈ g.identifiers ↔ ∃ y, g.Edge x y ∨ g.Edge y x) ∧
    g.toJson = .obj [("edge_count", .int {e : Text × Text | g.Edge e.1 e.2}.ncard),
      ("identifier_count", .int {x | ∃ y, g.Edge x y ∨ g.Edge y x}.ncard),
      ("edges", .arr (g.edges.map edgeJson))] ∧
    (∀ u y, y ∈ g.allDownstream u ↔ Relation.TransGen g.Edge u y) ∧
    (∀ d x, x ∈ g.allDependencies d ↔ Relation.TransGen g.Edge x d) ∧
    (∀ u x, x ∈ g.allDownstream u ↔ u ∈ g.allDependencies x) ∧
    (∀ u, u ∉ g.allDownstream u) := by
  intro g
  have hg : g.Wellformed sc := wellformed_ofChanges sc cs
  exact ⟨fun _ hv => checked_queries hv, fun _ _ => Iff.rfl, fun x d => (hg.mirrored x d).symm,
    fun _ _ => hg.hasEdgeValue_str, size_eq_ncard g, fun _ => mem_edges, edges_sorted g,
    fun _ => hg.mem_identifiers, hg.toJson_eq, fun _ _ => mem_allDownstream,
    fun _ _ => mem_allDependencies hg.mirrored, fun _ _ => hg.mem_allDownstream_iff,
    fun _ => hg.not_mem_allDownstream_self⟩

end Graph

end Invalidation
