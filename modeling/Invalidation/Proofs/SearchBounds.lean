import Invalidation.Proofs.Cycle
import Mathlib.Data.Finset.Card

namespace Invalidation

namespace Adjacency

variable {m : Adjacency} {remaining found work : List Text} {t : Text}

theorem fresh_nodup (m : Adjacency) (remaining : List Text) (x : Text) :
    (m.fresh remaining x).Nodup :=
  (pairwise_fresh m remaining x).imp fun {a _} h he => by
    subst he
    exact Text.lt_irrefl a h

-- Everything found is found before or comes out of `remaining`.
theorem mem_reach : ∀ y ∈ m.reach remaining found work, y ∈ found ∨ y ∈ remaining := by
  fun_induction m.reach remaining found work with
  | case1 => exact fun y hy => .inl hy
  | case2 _ _ _ _ _ ih => exact ih
  | case3 remaining found x work _ _ ih =>
    intro y hy
    rcases ih y hy with h | h
    · rcases List.mem_append.1 h with h | h
      · exact .inl h
      · exact .inr (mem_fresh.1 h).2
    · exact .inr (mem_without.1 h).1

-- Nothing is found twice: each turn adds identifiers still remaining, once each, and takes them
-- out of `remaining`.
theorem reach_nodup (hfound : found.Nodup) (hout : ∀ y ∈ found, y ∉ remaining) :
    (m.reach remaining found work).Nodup := by
  fun_induction m.reach remaining found work with
  | case1 => exact hfound
  | case2 _ _ _ _ _ ih => exact ih hfound hout
  | case3 remaining found x work _ _ ih =>
    refine ih (hfound.append (m.fresh_nodup remaining x) fun y hy hy' => ?_) fun y hy hyR => ?_
    · exact hout y hy (mem_fresh.1 hy').2
    · rcases List.mem_append.1 hy with h | h
      · exact hout y h (mem_without.1 hyR).1
      · exact (mem_without.1 hyR).2 h

-- The breadth-first search along the index for `target`, with the identifiers it puts on its queue
-- after its first item, in order.
def searchWithPushes (m : Adjacency) (target : Text) (remaining : List Text) :
    List (Text × List Text) → Option (List Text) × List Text
  | [] => (none, [])
  | (x, path) :: queue =>
    if x = target then (some path.reverse, [])
    else if h : m.fresh remaining x = [] then searchWithPushes m target remaining queue
    else
      have := length_without_lt h
      Prod.map id (m.fresh remaining x ++ ·) (searchWithPushes m target
        (without remaining (m.fresh remaining x)) (queue ++ extend path (m.fresh remaining x)))
termination_by queue => (remaining.length, queue.length)
decreasing_by
  · exact Prod.Lex.right _ (by simp)
  · exact Prod.Lex.left _ _ this

variable {queue : List (Text × List Text)}

theorem searchWithPushes_fst : (m.searchWithPushes t remaining queue).1 = m.search t remaining queue := by
  fun_induction m.searchWithPushes t remaining queue with
  | case1 => simp [search]
  | case2 => simp_all [search]
  | case3 _ _ _ _ hx hfresh ih => rw [search, if_neg hx, dif_pos hfresh, ih]
  | case4 _ _ _ _ hx hfresh _ ih => rw [search, if_neg hx, dif_neg hfresh, ← ih, Prod.map_fst, id]

-- What the search pushes comes out of `remaining`, once each.
theorem searchWithPushes_snd (m : Adjacency) (t : Text) (remaining : List Text)
    (queue : List (Text × List Text)) :
    (m.searchWithPushes t remaining queue).2.Nodup ∧
      ∀ y ∈ (m.searchWithPushes t remaining queue).2, y ∈ remaining := by
  fun_induction m.searchWithPushes t remaining queue with
  | case1 => simp
  | case2 => simp
  | case3 _ _ _ _ _ _ ih => exact ih
  | case4 remaining x _ _ _ _ _ ih =>
    rw [Prod.map_snd]
    obtain ⟨nodup, sub⟩ := ih
    refine ⟨(m.fresh_nodup remaining x).append nodup fun y hy hy' => ?_, fun y hy => ?_⟩
    · exact (mem_without.1 (sub y hy')).2 hy
    · rcases List.mem_append.1 hy with h | h
      · exact (mem_fresh.1 h).2
      · exact (mem_without.1 (sub y h)).1

-- A path the search gives is one of its queue, and each queue path is made of `s` and
-- identifiers under some key.
theorem mem_search_path {s : Text} {p : List Text}
    (hqueue : ∀ e ∈ queue, ∀ y ∈ e.2, y = s ∨ y ∈ m.members)
    (h : m.search t remaining queue = some p) : ∀ y ∈ p, y = s ∨ y ∈ m.members := by
  fun_induction m.search t remaining queue with
  | case1 => cases h
  | case2 _ path _ =>
    cases h
    exact fun y hy => hqueue _ List.mem_cons_self y (List.mem_reverse.1 hy)
  | case3 _ _ _ _ _ _ ih => exact ih (fun e he => hqueue e (List.mem_cons_of_mem _ he)) h
  | case4 remaining x path _ _ _ _ ih =>
    refine ih (fun e he y hy => ?_) h
    rcases List.mem_append.1 he with he | he
    · exact hqueue e (List.mem_cons_of_mem _ he) y hy
    · obtain ⟨c, hc, rfl⟩ := mem_extend.1 he
      rcases List.mem_cons.1 hy with rfl | hy
      · exact .inr (mem_members_of_mem_find (mem_fresh.1 hc).1)
      · exact hqueue _ List.mem_cons_self y hy

theorem mem_keys_of_mem_find {k y : Text} (h : y ∈ m.find k) : k ∈ m.keys := by
  obtain ⟨s, hks, -⟩ := mem_find_iff.1 h
  exact List.mem_map.2 ⟨(k, s), hks, rfl⟩

end Adjacency

-- A list of identifiers of `L` without repeats has at most as many items as `L` has identifiers.
theorem List.length_le_card_of_subset {l L : List Text} (hl : l.Nodup) (hsub : ∀ y ∈ l, y ∈ L) :
    l.length ≤ L.toFinset.card := by
  rw [← List.toFinset_card_of_nodup hl]
  exact Finset.card_le_card fun y hy => List.mem_toFinset.2 (hsub y (List.mem_toFinset.1 hy))

namespace Graph

variable {g : Graph} {u d y : Text}

-- The identifiers that occur in a graph: the keys of its two indexes and the identifiers in the
-- sets under them.
def occurring (g : Graph) : List Text := g.down.keys ++ g.down.members ++ g.up.keys ++ g.up.members

-- The cycle named for an edge from `u` to `d` is a path the search from `d` gives, then `d`; or,
-- when the search finds no path, `u` and `d`.
theorem mem_cycleThrough (h : y ∈ g.cycleThrough u d) : y = d ∨ y ∈ g.down.members ∨ y = u := by
  unfold cycleThrough at h
  split at h
  · next p hp =>
    rcases List.mem_append.1 h with h | h
    · rcases Adjacency.mem_search_path (s := d) (by simp) hp y h with h | h
      · exact .inl h
      · exact .inr (.inl h)
    · exact .inl (List.mem_singleton.1 h)
  · simp only [List.mem_cons, List.not_mem_nil, or_false] at h
    rcases h with h | h
    · exact .inr (.inr h)
    · exact .inl h

-- An edge is refused only when it joins an identifier to itself, or when `u` depends on
-- something, and then `u` is a key of the index of dependencies.
theorem eq_or_mem_keys_of_admits_false (h : g.admits u d = false) : u = d ∨ u ∈ g.up.keys := by
  by_cases hud : u = d
  · exact .inl hud
  · have hdep : g.hasEdge u d = false ∧ d ∈ g.allDependencies u := by
      simpa [admits, hud, IdSet.contains_iff] using h
    obtain ⟨c, huc, -⟩ := Relation.TransGen.head'_iff.1 (Adjacency.mem_reachable.1 hdep.2)
    exact .inr (Adjacency.mem_keys_of_mem_find huc)

end Graph

open Adjacency in
theorem searches_push_each_identifier_once (g : Graph) (s u d : Text) :
    (∀ m ∈ [g.up, g.down], (m.reach m.members [] [s]).Nodup ∧
      (∀ y ∈ m.reach m.members [] [s], y ∈ g.occurring) ∧
      (m.reach m.members [] [s]).length ≤ g.occurring.toFinset.card) ∧
    (g.down.searchWithPushes u (g.down.members.filter (· != d)) [(d, [d])]).2.Nodup ∧
    (∀ y ∈ (g.down.searchWithPushes u (g.down.members.filter (· != d)) [(d, [d])]).2,
      y ∈ g.occurring ∧ y ≠ d) ∧
    (g.down.searchWithPushes u (g.down.members.filter (· != d)) [(d, [d])]).2.length ≤
      g.occurring.toFinset.card ∧
    (∀ p ∈ g.down.shortestPath d u, ∀ y ∈ p, y = d ∨ y ∈ g.occurring) ∧
    (g.admits u d = false → ∀ y ∈ g.cycleThrough u d, y = d ∨ y ∈ g.occurring) := by
  have upOccur : ∀ y ∈ g.up.members, y ∈ g.occurring := by simp +contextual [Graph.occurring]
  have downOccur : ∀ y ∈ g.down.members, y ∈ g.occurring := by simp +contextual [Graph.occurring]
  -- each worklist search runs over one index, whose identifiers occur in the graph
  have worklist : ∀ m ∈ [g.up, g.down], ∀ y ∈ m.members, y ∈ g.occurring := by
    simp only [List.mem_cons, List.not_mem_nil, or_false, forall_eq_or_imp, forall_eq]
    exact ⟨upOccur, downOccur⟩
  obtain ⟨pushNodup, pushSub⟩ :=
    searchWithPushes_snd g.down u (g.down.members.filter (· != d)) [(d, [d])]
  have pushes : ∀ y ∈ (g.down.searchWithPushes u (g.down.members.filter (· != d)) [(d, [d])]).2,
      y ∈ g.occurring ∧ y ≠ d := fun y hy => by
    obtain ⟨hm, hd⟩ : y ∈ g.down.members ∧ y ≠ d := by simpa using pushSub y hy
    exact ⟨downOccur y hm, hd⟩
  have path : ∀ p ∈ g.down.shortestPath d u, ∀ y ∈ p, y = d ∨ y ∈ g.occurring :=
    fun p hp y hy => (mem_search_path (s := d) (by simp) hp y hy).imp_right (downOccur y)
  refine ⟨fun m hm => ?_, pushNodup, pushes,
    List.length_le_card_of_subset pushNodup fun y hy => (pushes y hy).1, path, fun hrefused y hy => ?_⟩
  · have found : ∀ y ∈ m.reach m.members [] [s], y ∈ g.occurring := fun y hy =>
      worklist m hm y ((mem_reach y hy).resolve_left List.not_mem_nil)
    have nodup : (m.reach m.members [] [s]).Nodup := reach_nodup List.nodup_nil (by simp)
    exact ⟨nodup, found, List.length_le_card_of_subset nodup found⟩
  · rcases Graph.mem_cycleThrough hy with h | h | rfl
    · exact .inl h
    · exact .inr (downOccur y h)
    · rcases Graph.eq_or_mem_keys_of_admits_false hrefused with h | h
      · exact .inl h
      · exact .inr (by simp [Graph.occurring, h])

end Invalidation
