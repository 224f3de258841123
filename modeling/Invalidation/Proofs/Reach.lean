import Invalidation.Proofs.Adjacency
import Mathlib.Logic.Relation

namespace Invalidation

namespace Adjacency

variable {m : Adjacency} {remaining found work : List Text} {x y : Text}

-- The relation an index stands for: `b` is in the set under `a`.
def Rel (m : Adjacency) (a b : Text) : Prop := b ∈ m.find a

theorem mem_fresh : y ∈ m.fresh remaining x ↔ m.Rel x y ∧ y ∈ remaining := by
  simp [fresh, Rel, IdSet.mem_def]

theorem mem_without {found : List Text} : y ∈ without remaining found ↔ y ∈ remaining ∧ y ∉ found := by
  simp [without]

theorem found_subset_reach : ∀ y ∈ found, y ∈ m.reach remaining found work := by
  fun_induction m.reach remaining found work with
  | case1 => exact fun _ h => h
  | case2 => assumption
  | case3 remaining found x work _ _ ih => exact fun y hy => ih y (List.mem_append_left _ hy)

-- Completeness: `base` stands for the identifiers the search started from.
theorem reach_closed {base : List Text}
    (covered : ∀ a b, m.Rel a b → b ∈ remaining ∨ b ∈ found)
    (pending : ∀ a, a ∈ base ∨ a ∈ found → a ∈ work ∨ ∀ b, m.Rel a b → b ∈ found) :
    ∀ a, a ∈ base ∨ a ∈ m.reach remaining found work →
      ∀ b, m.Rel a b → b ∈ m.reach remaining found work := by
  fun_induction m.reach remaining found work with
  | case1 remaining found =>
    intro a ha b hab
    cases pending a ha with
    | inl h => cases h
    | inr h => exact h b hab
  | case2 remaining found x work hx ih =>
    refine ih covered fun a ha => ?_
    cases pending a ha with
    | inl h =>
      cases List.mem_cons.1 h with
      | inl h =>
        -- nothing fresh under `x`: its successors are all found already
        subst h
        refine .inr fun b hab => (covered a b hab).resolve_left fun hb => ?_
        have : b ∈ m.fresh remaining a := mem_fresh.2 ⟨hab, hb⟩
        simp [hx] at this
      | inr h => exact .inl h
    | inr h => exact .inr h
  | case3 remaining found x work _ _ ih =>
    refine ih (fun a b hab => ?_) (fun a ha => ?_)
    · by_cases hb : b ∈ m.fresh remaining x
      · exact .inr (List.mem_append_right _ hb)
      · cases covered a b hab with
        | inl h => exact .inl (mem_without.2 ⟨h, hb⟩)
        | inr h => exact .inr (List.mem_append_left _ h)
    · by_cases hf : a ∈ m.fresh remaining x
      · exact .inl (List.mem_append_left _ hf)
      have ha : a ∈ base ∨ a ∈ found := by
        cases ha with
        | inl h => exact .inl h
        | inr h => exact .inr ((List.mem_append.1 h).resolve_right hf)
      cases pending a ha with
      | inl h =>
        cases List.mem_cons.1 h with
        | inl h =>
          -- `x` is expanded now: each successor is fresh, or was found before
          subst h
          refine .inr fun b hab => ?_
          by_cases hb : b ∈ remaining
          · exact List.mem_append_right _ (mem_fresh.2 ⟨hab, hb⟩)
          · exact List.mem_append_left _ ((covered a b hab).resolve_left hb)
        | inr h => exact .inl (List.mem_append_right _ h)
      | inr h => exact .inr fun b hab => List.mem_append_left _ (h b hab)

-- Soundness, for any property `T` closed under the index that holds of everything found and of
-- every successor of what is still to expand.
theorem reach_sound (T : Text → Prop) (closed : ∀ a b, T a → m.Rel a b → T b)
    (hfound : ∀ y ∈ found, T y) (hwork : ∀ a ∈ work, ∀ b, m.Rel a b → T b) :
    ∀ y ∈ m.reach remaining found work, T y := by
  fun_induction m.reach remaining found work with
  | case1 => exact hfound
  | case2 remaining found x work _ ih =>
    exact ih hfound fun a ha => hwork a (List.mem_cons_of_mem _ ha)
  | case3 remaining found x work _ _ ih =>
    have hx : ∀ b ∈ m.fresh remaining x, T b :=
      fun b hb => hwork x List.mem_cons_self b (mem_fresh.1 hb).1
    refine ih (fun y hy => ?_) (fun a ha => ?_)
    · cases List.mem_append.1 hy with
      | inl h => exact hfound y h
      | inr h => exact hx y h
    · cases List.mem_append.1 ha with
      | inl h => exact fun b hab => closed a b (hx a h) hab
      | inr h => exact hwork a (List.mem_cons_of_mem _ h)

-- The identifiers `reachable` gives are exactly those one step or more away.
theorem mem_reachable : y ∈ m.reachable x ↔ Relation.TransGen m.Rel x y := by
  rw [reachable, IdSet.mem_ofList]
  constructor
  · have sound : ∀ y ∈ m.reach m.members [] [x], Relation.TransGen m.Rel x y :=
      reach_sound _ (fun _ _ ha hab => ha.tail hab) (fun _ h => by cases h)
        (fun a ha b hab => by rw [List.mem_singleton.1 ha] at hab; exact .single hab)
    exact sound y
  · have closed : ∀ a, a ∈ [x] ∨ a ∈ m.reach m.members [] [x] →
        ∀ b, m.Rel a b → b ∈ m.reach m.members [] [x] :=
      reach_closed (fun _ _ hab => .inl (mem_members_of_mem_find hab)) (fun a ha => by simp_all)
    intro h
    induction h with
    | single hab => exact closed x (.inl List.mem_cons_self) _ hab
    | tail _ hab ih => exact closed _ (.inr ih) _ hab

end Adjacency

end Invalidation
