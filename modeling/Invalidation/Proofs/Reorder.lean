import Invalidation.Proofs.Removal

namespace Invalidation

namespace Graph

variable {g g' G : Graph} {sc : Scheme} {x y : Json} {es : List (Json × Json)}

-- Registers edges one after the other, stopping at the first refusal.
def registerAll (g : Graph) (sc : Scheme) (es : List (Json × Json)) : Except Fault Graph :=
  es.foldlM (fun g e => g.register sc e.1 e.2) g

-- The edges of a graph together with those a list of pairs of texts names.
def WithEdges (g : Graph) (es : List (Json × Json)) (u d : Text) : Prop :=
  g.Edge u d ∨ (Json.str u, Json.str d) ∈ es

-- Every pair a list names is a pair of texts the scheme accepts.
def ValidPairs (sc : Scheme) (es : List (Json × Json)) : Prop :=
  ∀ e ∈ es, ∃ u d, e = (.str u, .str d) ∧ sc.isValid (.str u) = true ∧ sc.isValid (.str d) = true

theorem registerAll_cons (e : Json × Json) :
    g.registerAll sc (e :: es) = g.register sc e.1 e.2 >>= fun g' => g'.registerAll sc es := by
  rw [registerAll, List.foldlM_cons]
  rfl

-- A registration that succeeds was given two valid texts and added the edge between them.
theorem register_eq_ok (h : g.register sc x y = .ok g') :
    ∃ u d, x = .str u ∧ y = .str d ∧ sc.isValid (.str u) = true ∧ sc.isValid (.str d) = true ∧
      g' = g.link u d := by
  obtain ⟨⟨u, d⟩, hc, -⟩ := Except.bind_eq_ok.1 h
  obtain ⟨hxu, hyd⟩ := checkEdge_eq_ok.1 hc
  obtain ⟨rfl, hu⟩ := Scheme.requireValid_eq_ok.1 hxu
  obtain ⟨rfl, hd⟩ := Scheme.requireValid_eq_ok.1 hyd
  exact ⟨u, d, rfl, rfl, hu, hd, register_eq_link hu hd h⟩

-- Linking an edge and naming the rest gives the same edges as naming them all.
theorem withEdges_link {u d : Text} :
    WithEdges (g.link u d) es = WithEdges g ((.str u, .str d) :: es) := by
  funext a b
  simp only [WithEdges, edge_link, List.mem_cons, Prod.mk.injEq, Json.str.injEq, eq_iff_iff]
  tauto

theorem withEdges_congr {es₁ es₂ : List (Json × Json)} (h : ∀ e, e ∈ es₁ ↔ e ∈ es₂) :
    WithEdges g es₁ = WithEdges g es₂ := by
  funext a b
  simp only [WithEdges, h]

theorem validPairs_cons {e : Json × Json} : ValidPairs sc (e :: es) ↔
    (∃ u d, e = (.str u, .str d) ∧ sc.isValid (.str u) = true ∧ sc.isValid (.str d) = true) ∧
      ValidPairs sc es := by
  simp [ValidPairs]

section Wellformed

variable (hg : g.Wellformed sc)
include hg

-- A run that succeeds named valid pairs only, and gave a well-formed graph with the old edges
-- and the named ones.
theorem Wellformed.registerAll_sound (h : g.registerAll sc es = .ok G) :
    ValidPairs sc es ∧ G.Wellformed sc ∧ ∀ u d, G.Edge u d ↔ WithEdges g es u d := by
  induction es generalizing g with
  | nil =>
    cases h
    exact ⟨by simp [ValidPairs], hg, fun u d => by simp [WithEdges]⟩
  | cons e es ih =>
    rw [registerAll_cons] at h
    obtain ⟨g₁, h₁, h⟩ := Except.bind_eq_ok.1 h
    obtain ⟨u, d, hx, hy, hu, hd, rfl⟩ := register_eq_ok h₁
    obtain ⟨hvalid, hG, hedges⟩ := ih (hg.register h₁) h
    have he : e = (.str u, .str d) := Prod.ext hx hy
    refine ⟨validPairs_cons.2 ⟨⟨u, d, he, hu, hd⟩, hvalid⟩, hG, fun a b => ?_⟩
    rw [hedges, withEdges_link, he]

-- Valid pairs whose edges close no cycle with the graph's are all registered, one by one.
theorem Wellformed.registerAll_complete (hvalid : ValidPairs sc es)
    (hacyclic : ∀ x, ¬Relation.TransGen (WithEdges g es) x x) :
    ∃ G, g.registerAll sc es = .ok G ∧ G.Wellformed sc ∧ ∀ u d, G.Edge u d ↔ WithEdges g es u d := by
  induction es generalizing g with
  | nil => exact ⟨g, rfl, hg, fun u d => by simp [WithEdges]⟩
  | cons e es ih =>
    obtain ⟨⟨u, d, rfl, hu, hd⟩, hrest⟩ := validPairs_cons.1 hvalid
    -- the first edge is among all the edges, which close no cycle, so it is admitted
    have hnew : WithEdges g ((.str u, .str d) :: es) u d := .inr List.mem_cons_self
    have hold : ∀ a b, g.Edge a b → WithEdges g ((.str u, .str d) :: es) a b := fun _ _ h => .inl h
    have hne : u ≠ d := by
      rintro rfl
      exact hacyclic u (.single hnew)
    have hnot : ¬Relation.TransGen g.Edge d u := fun hdu =>
      hacyclic d ((Relation.TransGen.mono hold d u hdu).tail hnew)
    have hadm : g.admits u d = true := hg.admits_iff.2 ⟨hne, hnot⟩
    rw [← withEdges_link] at hacyclic
    obtain ⟨G, hrun, hG, hedges⟩ := ih (hg.link hu hd hadm) hrest hacyclic
    refine ⟨G, ?_, hG, fun a b => by rw [hedges, withEdges_link]⟩
    rw [registerAll_cons, hg.register_link hu hd hne hnot]
    exact hrun

end Wellformed

theorem registrations_commute (sc : Scheme) (cs : List Change) :
    (∀ (x₁ y₁ x₂ y₂ : Json) (G : Graph),
      ((ofChanges sc cs).register sc x₁ y₁ >>= fun g => g.register sc x₂ y₂) = .ok G →
        ((ofChanges sc cs).register sc x₂ y₂ >>= fun g => g.register sc x₁ y₁) = .ok G) ∧
    (∀ (es : List (Json × Json)) (G : Graph), (ofChanges sc cs).registerAll sc es = .ok G →
      ∀ u d, G.Edge u d ↔ (ofChanges sc cs).Edge u d ∨ (Json.str u, Json.str d) ∈ es) ∧
    ∀ (es₁ es₂ : List (Json × Json)), (∀ e, e ∈ es₁ ↔ e ∈ es₂) →
      ∀ G, (ofChanges sc cs).registerAll sc es₁ = .ok G →
        (ofChanges sc cs).registerAll sc es₂ = .ok G := by
  have hg := wellformed_ofChanges sc cs
  -- a run naming the same edges as one that succeeded succeeds, with the same edges
  have reorder : ∀ (es₁ es₂ : List (Json × Json)), (∀ e, e ∈ es₁ ↔ e ∈ es₂) →
      ∀ G, (ofChanges sc cs).registerAll sc es₁ = .ok G →
        (ofChanges sc cs).registerAll sc es₂ = .ok G := by
    intro es₁ es₂ hsame G h
    obtain ⟨hvalid, hG, hedges⟩ := hg.registerAll_sound h
    rw [withEdges_congr hsame] at hedges
    have hvalid₂ : ValidPairs sc es₂ := fun e he => hvalid e ((hsame e).2 he)
    have hacyclic : ∀ x, ¬Relation.TransGen (WithEdges (ofChanges sc cs) es₂) x x := by
      have hrel : WithEdges (ofChanges sc cs) es₂ = G.Edge := by
        funext a b
        exact propext (hedges a b).symm
      rw [hrel]
      exact hG.acyclic
    obtain ⟨G₂, hrun, hG₂, hedges₂⟩ := hg.registerAll_complete hvalid₂ hacyclic
    rw [hrun, hG₂.ext hG fun a b => by rw [hedges₂, hedges]]
  refine ⟨fun x₁ y₁ x₂ y₂ G h => ?_, fun es G h => (hg.registerAll_sound h).2.2, reorder⟩
  have swap := reorder [(x₁, y₁), (x₂, y₂)] [(x₂, y₂), (x₁, y₁)] (by simp [or_comm]) G
  simpa [registerAll] using swap (by simpa [registerAll] using h)

end Graph

end Invalidation
