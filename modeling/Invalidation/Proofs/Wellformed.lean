import Invalidation.Proofs.Reach
import Invalidation.Proofs.Scheme
import Invalidation.Graph.Edit

namespace Invalidation

open Relation

namespace Graph

variable {g g' : Graph} {sc : Scheme} {u d a b : Text}

-- `d` is directly downstream of `u`.
def Edge (g : Graph) (u d : Text) : Prop := d ∈ g.downstreamOf u

@[simp] theorem mem_downstreamOf_link :
    b ∈ (g.link u d).downstreamOf a ↔ a = u ∧ b = d ∨ b ∈ g.downstreamOf a :=
  Adjacency.mem_find_add

@[simp] theorem mem_dependenciesOf_link :
    a ∈ (g.link u d).dependenciesOf b ↔ b = d ∧ a = u ∨ a ∈ g.dependenciesOf b :=
  Adjacency.mem_find_add

@[simp] theorem mem_downstreamOf_unlink :
    b ∈ (g.unlink u d).downstreamOf a ↔ b ∈ g.downstreamOf a ∧ ¬(a = u ∧ b = d) :=
  Adjacency.mem_find_remove

@[simp] theorem mem_dependenciesOf_unlink :
    a ∈ (g.unlink u d).dependenciesOf b ↔ a ∈ g.dependenciesOf b ∧ ¬(b = d ∧ a = u) :=
  Adjacency.mem_find_remove

theorem edge_link : (g.link u d).Edge a b ↔ a = u ∧ b = d ∨ g.Edge a b := mem_downstreamOf_link

theorem edge_unlink : (g.unlink u d).Edge a b ↔ g.Edge a b ∧ ¬(a = u ∧ b = d) :=
  mem_downstreamOf_unlink

-- The five facts every graph keeps.
structure Wellformed (sc : Scheme) (g : Graph) : Prop where
  mirrored : ∀ u d, d ∈ g.downstreamOf u ↔ u ∈ g.dependenciesOf d
  down_populated : g.down.Populated
  up_populated : g.up.Populated
  valid : ∀ u d, g.Edge u d → sc.isValid (.str u) = true ∧ sc.isValid (.str d) = true
  irreflexive : ∀ u, ¬g.Edge u u
  acyclic : ∀ u, ¬TransGen g.Edge u u

-- Searching the dependency index walks the edges backwards, once the indexes agree.
theorem mem_allDependencies (hm : ∀ u d, d ∈ g.downstreamOf u ↔ u ∈ g.dependenciesOf d) :
    a ∈ g.allDependencies b ↔ TransGen g.Edge a b := by
  have h : g.up.Rel = Function.swap g.Edge := by
    funext x y
    exact propext (hm y x).symm
  rw [allDependencies, Adjacency.mem_reachable, h, transGen_swap]

theorem admits_iff (hm : ∀ u d, d ∈ g.downstreamOf u ↔ u ∈ g.dependenciesOf d) :
    g.admits u d = true ↔ u ≠ d ∧ (g.Edge u d ∨ ¬TransGen g.Edge d u) := by
  simp [admits, hasEdge, Bool.eq_false_iff, IdSet.contains_iff, mem_allDependencies hm, Edge]

-- A chain over a graph with one more edge either is old, or takes the new edge from `u` to `d`.
theorem transGen_link (h : TransGen (g.link u d).Edge a b) :
    TransGen g.Edge a b ∨ ReflTransGen g.Edge a u ∧ ReflTransGen g.Edge d b := by
  induction h with
  | single hab =>
    cases edge_link.1 hab with
    | inl h => obtain ⟨rfl, rfl⟩ := h; exact .inr ⟨.refl, .refl⟩
    | inr h => exact .inl (.single h)
  | tail _ hbc ih =>
    cases edge_link.1 hbc with
    | inl h =>
      obtain ⟨rfl, rfl⟩ := h
      cases ih with
      | inl ih => exact .inr ⟨ih.to_reflTransGen, .refl⟩
      | inr ih => exact .inr ⟨ih.1, .refl⟩
    | inr h =>
      cases ih with
      | inl ih => exact .inl (ih.tail h)
      | inr ih => exact .inr ⟨ih.1, ih.2.tail h⟩

-- One more edge keeps an acyclic graph acyclic exactly when it joins two different identifiers
-- and its downstream end does not already reach its upstream end.
theorem acyclic_link_iff (hacyclic : ∀ x, ¬TransGen g.Edge x x) :
    (∀ x, ¬TransGen (g.link u d).Edge x x) ↔ u ≠ d ∧ ¬TransGen g.Edge d u := by
  have hnew : (g.link u d).Edge u d := edge_link.2 (.inl ⟨rfl, rfl⟩)
  constructor
  · intro h
    refine ⟨fun hud => ?_, fun hdu => h d ?_⟩
    · subst hud
      exact h u (.single hnew)
    · exact (TransGen.mono (fun _ _ e => edge_link.2 (.inr e)) d u hdu).tail hnew
  · rintro ⟨hne, hnot⟩ x hx
    cases transGen_link hx with
    | inl h => exact hacyclic x h
    | inr h =>
      -- the cycle goes through the new edge, so `d` already reached `u`
      cases reflTransGen_iff_eq_or_transGen.1 (h.2.trans h.1) with
      | inl h => exact hne h
      | inr h => exact hnot h

theorem wellformed_empty : empty.Wellformed sc where
  mirrored _ _ := by simp [downstreamOf, dependenciesOf, empty]
  down_populated := Adjacency.populated_empty
  up_populated := Adjacency.populated_empty
  valid _ _ h := by simp [Edge, downstreamOf, empty] at h
  irreflexive _ h := by simp [Edge, downstreamOf, empty] at h
  acyclic _ h := by
    obtain ⟨_, h, -⟩ := TransGen.head'_iff.1 h
    simp [Edge, downstreamOf, empty] at h

theorem checkEdge_eq_ok {x y : Json} {u d : Text} :
    checkEdge sc x y = .ok (u, d) ↔
      sc.requireValid x "upstream" = .ok u ∧ sc.requireValid y "downstream" = .ok d := by
  cases hx : sc.requireValid x "upstream" <;> cases hy : sc.requireValid y "downstream" <;>
    simp [checkEdge, hx, hy, bind, Except.bind, pure, Except.pure]

variable (hg : g.Wellformed sc)
include hg

-- On a well-formed graph an edge it already has never leads back, so the shortcut for such an
-- edge agrees with the search.
theorem Wellformed.admits_iff : g.admits u d = true ↔ u ≠ d ∧ ¬TransGen g.Edge d u := by
  rw [Graph.admits_iff hg.mirrored]
  constructor
  · rintro ⟨hne, hud | hnot⟩
    · exact ⟨hne, fun hdu => hg.acyclic d (hdu.tail hud)⟩
    · exact ⟨hne, hnot⟩
  · rintro ⟨hne, hnot⟩
    exact ⟨hne, .inr hnot⟩

-- An admitted edge between valid identifiers closes no cycle.
theorem Wellformed.link (hu : sc.isValid (.str u) = true) (hd : sc.isValid (.str d) = true)
    (hadm : g.admits u d = true) : (g.link u d).Wellformed sc where
  mirrored x y := by
    simp only [mem_downstreamOf_link, mem_dependenciesOf_link, hg.mirrored x y]
    constructor <;> rintro (⟨h₁, h₂⟩ | h) <;> simp_all
  down_populated := hg.down_populated.add u d
  up_populated := hg.up_populated.add d u
  valid x y h := by
    cases edge_link.1 h with
    | inl h => obtain ⟨rfl, rfl⟩ := h; exact ⟨hu, hd⟩
    | inr h => exact hg.valid x y h
  irreflexive x h := (acyclic_link_iff hg.acyclic).2 (hg.admits_iff.1 hadm) x (.single h)
  acyclic := (acyclic_link_iff hg.acyclic).2 (hg.admits_iff.1 hadm)

theorem Wellformed.unlink (u d : Text) : (g.unlink u d).Wellformed sc where
  mirrored x y := by
    simp only [mem_downstreamOf_unlink, mem_dependenciesOf_unlink, hg.mirrored x y]
    constructor <;> rintro ⟨h₁, h₂⟩ <;> exact ⟨h₁, by rintro ⟨rfl, rfl⟩; exact h₂ ⟨rfl, rfl⟩⟩
  down_populated := hg.down_populated.remove u d
  up_populated := hg.up_populated.remove d u
  valid x y h := hg.valid x y (edge_unlink.1 h).1
  irreflexive x h := hg.irreflexive x (edge_unlink.1 h).1
  acyclic x h := hg.acyclic x (TransGen.mono (fun _ _ h => (edge_unlink.1 h).1) x x h)

-- A registration that succeeds added an admitted edge between valid identifiers.
theorem Wellformed.register {x y : Json} (h : g.register sc x y = .ok g') : g'.Wellformed sc := by
  obtain ⟨⟨u, d⟩, hc, hr⟩ := Except.bind_eq_ok.1 h
  obtain ⟨hu, hd⟩ := checkEdge_eq_ok.1 hc
  dsimp only at hr
  split at hr
  case isTrue hadm =>
    cases hr
    exact hg.link (Scheme.requireValid_eq_ok.1 hu).2 (Scheme.requireValid_eq_ok.1 hd).2 hadm
  case isFalse => split at hr <;> cases hr

theorem Wellformed.deregister {x y : Json} (h : g.deregister sc x y = .ok g') : g'.Wellformed sc := by
  obtain ⟨⟨u, d⟩, -, hr⟩ := Except.bind_eq_ok.1 h
  cases hr
  exact hg.unlink u d

theorem Wellformed.foldlM_deregister (ups : List Text) (y : Json)
    (h : ups.foldlM (fun g u => g.deregister sc (.str u) y) g = .ok g') : g'.Wellformed sc := by
  induction ups generalizing g with
  | nil => cases h; exact hg
  | cons u ups ih =>
    obtain ⟨g₁, h₁, h⟩ := Except.bind_eq_ok.1 h
    exact ih (hg.deregister h₁) h

theorem Wellformed.deregisterAll {y : Json} {line : Option LogLine}
    (h : g.deregisterAll sc y = .ok (g', line)) : g'.Wellformed sc := by
  obtain ⟨d, -, hr⟩ := Except.bind_eq_ok.1 h
  dsimp only at hr
  split at hr
  case isTrue => cases hr; exact hg
  case isFalse =>
    obtain ⟨g₁, h₁, hr⟩ := Except.bind_eq_ok.1 hr
    cases hr
    exact hg.foldlM_deregister _ y h₁

-- A change made to a graph, with any arguments.
inductive Change where
  | register (u d : Json)
  | deregister (u d : Json)
  | deregisterAll (d : Json)
  | clear

-- The graph after a change; a change that is refused leaves the graph as it was.
def apply (sc : Scheme) (g : Graph) : Change → Graph
  | .register u d =>
    match g.register sc u d with
    | .ok g' => g'
    | .error _ => g
  | .deregister u d =>
    match g.deregister sc u d with
    | .ok g' => g'
    | .error _ => g
  | .deregisterAll d =>
    match g.deregisterAll sc d with
    | .ok (g', _) => g'
    | .error _ => g
  | .clear => empty

-- The graph that a sequence of changes builds from the empty graph.
def ofChanges (sc : Scheme) (cs : List Change) : Graph := cs.foldl (apply sc) empty

theorem Wellformed.apply (c : Change) : (g.apply sc c).Wellformed sc := by
  cases c with
  | register x y =>
    simp only [Graph.apply]
    split
    case h_1 h => exact hg.register h
    case h_2 => exact hg
  | deregister x y =>
    simp only [Graph.apply]
    split
    case h_1 h => exact hg.deregister h
    case h_2 => exact hg
  | deregisterAll y =>
    simp only [Graph.apply]
    split
    case h_1 h => exact hg.deregisterAll h
    case h_2 => exact hg
  | clear => exact wellformed_empty

omit hg in
theorem wellformed_ofChanges (sc : Scheme) (cs : List Change) : (ofChanges sc cs).Wellformed sc := by
  -- each change keeps the five facts, from the empty graph on
  suffices h : ∀ g : Graph, g.Wellformed sc → (cs.foldl (Graph.apply sc) g).Wellformed sc from
    h empty wellformed_empty
  induction cs with
  | nil => exact fun _ hg => hg
  | cons c cs ih => exact fun g hg => ih _ (hg.apply c)

end Graph

end Invalidation
