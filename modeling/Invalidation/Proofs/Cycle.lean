import Invalidation.Proofs.Register
import Mathlib.Data.List.Chain
import Mathlib.Data.List.Nodup
import Mathlib.Data.List.Shortlex

namespace Invalidation

open Relation List

namespace Text

instance : Std.Irrefl (fun a b : Text => a < b) := ⟨lt_irrefl⟩

instance : Std.Trichotomous (fun a b : Text => a < b) :=
  ⟨fun _ _ hab hba => Classical.byContradiction fun hne => hba (lt_of_not_lt_of_ne hab hne)⟩

variable {p q r : List Text} {a b : Text}

theorem shortlex_irrefl (p : List Text) : ¬Shortlex (· < ·) p p := by
  rw [shortlex_def]
  rintro (h | ⟨-, h⟩)
  · exact Nat.lt_irrefl _ h
  · exact lex_irrefl lt_irrefl p h

theorem shortlex_trans (h₁ : Shortlex (· < ·) p q) (h₂ : Shortlex (· < ·) q r) :
    Shortlex (· < ·) p r := by
  rw [shortlex_def] at *
  rcases h₁ with h₁ | ⟨e₁, l₁⟩ <;> rcases h₂ with h₂ | ⟨e₂, l₂⟩
  · exact .inl (by omega)
  · exact .inl (by omega)
  · exact .inl (by omega)
  · exact .inr ⟨e₁.trans e₂, lex_trans lt_trans l₁ l₂⟩

theorem shortlex_trichotomy (p q : List Text) :
    Shortlex (· < ·) p q ∨ p = q ∨ Shortlex (· < ·) q p := by
  by_cases h₁ : Shortlex (· < ·) p q
  · exact .inl h₁
  by_cases h₂ : Shortlex (· < ·) q p
  · exact .inr (.inr h₂)
  exact .inr (.inl (Std.Trichotomous.trichotomous p q h₁ h₂))

-- Nothing comes before a list that comes, or is, before it.
theorem not_shortlex_of_le_of_le (h₁ : p = q ∨ Shortlex (· < ·) p q)
    (h₂ : q = r ∨ Shortlex (· < ·) q r) : ¬Shortlex (· < ·) r p := by
  intro h₃
  rcases h₁ with rfl | h₁ <;> rcases h₂ with rfl | h₂
  · exact shortlex_irrefl _ h₃
  · exact shortlex_irrefl _ (shortlex_trans h₂ h₃)
  · exact shortlex_irrefl _ (shortlex_trans h₁ h₃)
  · exact shortlex_irrefl _ (shortlex_trans (shortlex_trans h₁ h₂) h₃)

theorem lex_append_of_length_eq {s t : List Text} (e : p.length = q.length)
    (h : Lex (· < ·) p q) : Lex (· < ·) (p ++ s) (q ++ t) := by
  induction h with
  | nil => simp at e
  | cons _ ih => exact .cons (ih (by simpa using e))
  | rel h => exact .rel h

-- Two lists of one length, each with one more item, compare as the lists do, or as the items do
-- when the lists are the same.
theorem lex_of_append_singleton (e : p.length = q.length)
    (h : Lex (· < ·) (p ++ [a]) (q ++ [b])) : Lex (· < ·) p q ∨ p = q ∧ a < b := by
  induction p generalizing q with
  | nil =>
    cases q with
    | nil => exact .inr ⟨rfl, (lex_singleton_iff a b).1 h⟩
    | cons => simp at e
  | cons c p ih =>
    cases q with
    | nil => simp at e
    | cons c' q =>
      simp only [cons_append] at h
      cases h with
      | cons h =>
        rcases ih (by simpa using e) h with l | ⟨rfl, hab⟩
        · exact .inl (.cons l)
        · exact .inr ⟨rfl, hab⟩
      | rel h => exact .inl (.rel h)

theorem shortlex_of_append_singleton (h : Shortlex (· < ·) (p ++ [a]) (q ++ [b])) :
    Shortlex (· < ·) p q ∨ p = q ∧ a < b := by
  rcases shortlex_def.1 h with h | ⟨e, l⟩
  · exact .inl (.of_length_lt (by simpa using h))
  · have e : p.length = q.length := by simpa using e
    rcases lex_of_append_singleton e l with l | h
    · exact .inl (.of_lex e l)
    · exact .inr h

theorem shortlex_append_singleton (p : List Text) (h : a < b) :
    Shortlex (· < ·) (p ++ [a]) (p ++ [b]) :=
  Shortlex.append_left ((shortlex_singleton_iff a b).2 h) p

theorem shortlex_append_singleton_self (p : List Text) (a : Text) :
    Shortlex (· < ·) p (p ++ [a]) :=
  .of_length_lt (by simp)

-- A list whose front comes before `q` comes before `q` with one more item.
theorem shortlex_append_of_dropLast (hp : p ≠ []) (h : Shortlex (· < ·) p.dropLast q) :
    Shortlex (· < ·) p (q ++ [b]) := by
  obtain ⟨p', a, rfl⟩ := (eq_nil_or_concat p).resolve_left hp
  rw [concat_eq_append] at h ⊢
  rw [dropLast_concat] at h
  rcases shortlex_def.1 h with h | ⟨e, l⟩
  · exact .of_length_lt (by simp; omega)
  · exact .of_lex (by simp [e]) (lex_append_of_length_eq e l)

end Text

namespace Adjacency

variable {m : Adjacency} {s t x y : Text} {p q r : List Text}

-- A route from `s` to `x` along the index: the identifiers on the way from `s` to `x`, each under
-- the one before it.
def Route (m : Adjacency) (s x : Text) (r : List Text) : Prop :=
  r.head? = some s ∧ r.getLast? = some x ∧ r.IsChain m.Rel

theorem route_single : m.Route s s [s] := ⟨rfl, rfl, .singleton s⟩

theorem Route.ne_nil (h : m.Route s x r) : r ≠ [] := by
  rintro rfl
  cases h.1

theorem Route.snoc (h : m.Route s x r) (hxy : m.Rel x y) : m.Route s y (r ++ [y]) := by
  obtain ⟨hs, hx, hc⟩ := h
  refine ⟨?_, by simp, isChain_append.2 ⟨hc, .singleton y, fun a ha b hb => ?_⟩⟩
  · cases r with
    | nil => cases hs
    | cons a r => exact hs
  · rw [hx, Option.mem_some_iff] at ha
    rw [head?_cons, Option.mem_some_iff] at hb
    subst ha hb
    exact hxy

-- The last edge of a route: a route is the route of `s` alone, or a route followed by one edge.
theorem Route.eq_single_or_snoc (h : m.Route s y q) :
    q = [s] ∧ y = s ∨ ∃ q' a, q = q' ++ [y] ∧ m.Route s a q' ∧ m.Rel a y := by
  obtain ⟨hs, hy, hc⟩ := h
  rcases eq_nil_or_concat q with rfl | ⟨q', b, rfl⟩
  · cases hs
  rw [concat_eq_append] at hs hy hc ⊢
  obtain rfl : b = y := by simpa using hy
  rcases eq_nil_or_concat q' with rfl | ⟨q'', a, rfl⟩
  · obtain rfl : b = s := by simpa using hs
    exact .inl ⟨rfl, rfl⟩
  rw [concat_eq_append] at hs hc ⊢
  refine .inr ⟨q'' ++ [a], a, rfl, ⟨?_, by simp, hc.left_of_append⟩, ?_⟩
  · cases q'' with
    | nil => simpa using hs
    | cons c q'' => simpa using hs
  · exact (isChain_append.1 hc).2.2 a (by simp) b (by simp)

-- Induction along routes, one edge at a time.
theorem Route.induction {P : List Text → Text → Prop} (single : P [s] s)
    (snoc : ∀ q a y, m.Route s a q → m.Rel a y → P q a → P (q ++ [y]) y)
    (h : m.Route s y q) : P q y := by
  induction hn : q.length generalizing y q with
  | zero => exact absurd (length_eq_zero_iff.1 hn) h.ne_nil
  | succ n ih =>
    rcases h.eq_single_or_snoc with ⟨rfl, rfl⟩ | ⟨q', a, rfl, hq', hay⟩
    · exact single
    · exact snoc q' a y hq' hay (ih hq' (by simpa using hn))

-- Every route from `s` is `[s]` or comes after it.
theorem Route.single_le (h : m.Route s x q) : [s] = q ∨ Shortlex (· < ·) [s] q := by
  obtain ⟨hs, -, -⟩ := h
  match q, hs with
  | [a], hs => exact .inl (by simpa using hs.symm)
  | _ :: _ :: _, _ => exact .inr (.of_length_lt (by simp))

theorem route_of_reflTransGen (h : ReflTransGen m.Rel s x) : ∃ r, m.Route s x r := by
  induction h with
  | refl => exact ⟨_, route_single⟩
  | tail _ hxy ih =>
    obtain ⟨r, hr⟩ := ih
    exact ⟨_, hr.snoc hxy⟩

theorem mem_extend {e : Text × List Text} {cs : List Text} :
    e ∈ extend p cs ↔ ∃ c ∈ cs, e = (c, c :: p) := by
  simp [extend, eq_comm]

theorem pairwise_fresh (m : Adjacency) (remaining : List Text) (x : Text) :
    (m.fresh remaining x).Pairwise (· < ·) :=
  (m.find x).sorted.filter _

-- The first item of a queue sorted by route has the least route.
theorem head_le_of_sorted {Q : List (Text × List Text)} {h e : Text × List Text}
    (hs : (Q.map fun e => e.2.reverse).Pairwise (Shortlex (· < ·))) (hh : h ∈ Q.head?)
    (he : e ∈ Q) : h.2.reverse = e.2.reverse ∨ Shortlex (· < ·) h.2.reverse e.2.reverse := by
  cases Q with
  | nil => cases hh
  | cons h' Q =>
    obtain rfl : h' = h := by simpa using hh
    rw [map_cons, pairwise_cons] at hs
    rcases mem_cons.1 he with rfl | he
    · exact .inl rfl
    · exact .inr (hs.1 _ (mem_map_of_mem he))

-- What the breadth-first search from `s` for `t` keeps: `remaining` holds the identifiers not yet
-- reached, `done` those taken off the queue, and each queue item an identifier with its route,
-- newest first. Every route on the queue is the least route to its identifier, the queue is sorted
-- by route, and every identifier with a route before the first one on the queue is done.
structure Searching (m : Adjacency) (s t : Text) (remaining : List Text)
    (queue : List (Text × List Text)) (done : List Text) : Prop where
  route : ∀ e ∈ queue, m.Route s e.1 e.2.reverse
  least : ∀ e ∈ queue, ∀ q, m.Route s e.1 q → e.2.reverse = q ∨ Shortlex (· < ·) e.2.reverse q
  nodup : ∀ e ∈ queue, e.2.Nodup
  reached : ∀ e ∈ queue, ∀ z ∈ e.2, z ∉ remaining
  sorted : (queue.map fun e => e.2.reverse).Pairwise (Shortlex (· < ·))
  parents : ∀ h ∈ queue.head?, ∀ e ∈ queue, Shortlex (· < ·) e.2.reverse.dropLast h.2.reverse
  source : s ∉ remaining
  below : ∀ h ∈ queue.head?, ∀ y q, m.Route s y q → Shortlex (· < ·) q h.2.reverse → y ∈ done
  expanded : ∀ a ∈ done, ∀ b, m.Rel a b → b ∉ remaining
  found : ∀ y, (y ∈ m.members ∧ y ∉ remaining) ∨ y = s → y ∈ done ∨ ∃ e ∈ queue, e.1 = y
  target : t ∉ done

theorem searching_start : Searching m s t (m.members.filter (· != s)) [(s, [s])] [] where
  route := by simpa using route_single
  least := by simpa using fun q hq => hq.single_le
  nodup := by simp
  reached := by simp
  sorted := by simp
  parents := by simpa using Shortlex.of_length_lt (by simp)
  source := by simp
  below := by
    simp only [head?_cons, Option.mem_some_iff, forall_eq', reverse_singleton]
    intro y q hq hlt
    exact (Text.not_shortlex_of_le_of_le hq.single_le (.inl rfl) hlt).elim
  expanded := by simp
  found := by
    intro y hy
    refine .inr ⟨(s, [s]), mem_singleton_self _, ?_⟩
    rcases hy with ⟨hm, hy⟩ | rfl
    · exact (by simpa [hm] using hy : y = s).symm
    · rfl
  target := by simp

section Step

variable {R D : List Text} {p : List Text} {Q : List (Text × List Text)}
  (hs : Searching m s t R ((x, p) :: Q) D)
include hs

theorem Searching.step_route :
    ∀ e ∈ Q ++ extend p (m.fresh R x), m.Route s e.1 e.2.reverse := by
  intro e he
  rcases mem_append.1 he with he | he
  · exact hs.route e (mem_cons_of_mem _ he)
  · obtain ⟨c, hc, rfl⟩ := mem_extend.1 he
    rw [reverse_cons]
    exact (hs.route _ mem_cons_self).snoc (mem_fresh.1 hc).1

-- A route to a newly reached identifier that came first would run through an identifier done
-- before `x`, and that identifier reached it already.
theorem Searching.step_least : ∀ e ∈ Q ++ extend p (m.fresh R x), ∀ q, m.Route s e.1 q →
    e.2.reverse = q ∨ Shortlex (· < ·) e.2.reverse q := by
  intro e he q hq
  rcases mem_append.1 he with he | he
  · exact hs.least e (mem_cons_of_mem _ he) q hq
  obtain ⟨c, hc, rfl⟩ := mem_extend.1 he
  obtain ⟨-, hcR⟩ := mem_fresh.1 hc
  rw [reverse_cons]
  rcases Text.shortlex_trichotomy (p.reverse ++ [c]) q with h | h | h
  · exact .inr h
  · exact .inl h
  exfalso
  rcases hq.eq_single_or_snoc with ⟨-, rfl⟩ | ⟨q', a, rfl, hq', hac⟩
  · exact hs.source hcR
  rcases Text.shortlex_of_append_singleton h with h | ⟨-, h⟩
  · exact hs.expanded a (hs.below _ rfl a q' hq' h) c hac hcR
  · exact Text.lt_irrefl c h

theorem Searching.step_nodup : ∀ e ∈ Q ++ extend p (m.fresh R x), e.2.Nodup := by
  intro e he
  rcases mem_append.1 he with he | he
  · exact hs.nodup e (mem_cons_of_mem _ he)
  · obtain ⟨c, hc, rfl⟩ := mem_extend.1 he
    -- `c` was still to be reached, and the route to `x` was reached
    exact nodup_cons.2 ⟨fun hcp => hs.reached _ mem_cons_self c hcp (mem_fresh.1 hc).2,
      hs.nodup _ mem_cons_self⟩

theorem Searching.step_reached :
    ∀ e ∈ Q ++ extend p (m.fresh R x), ∀ z ∈ e.2, z ∉ without R (m.fresh R x) := by
  intro e he z hz hzR
  rw [mem_without] at hzR
  rcases mem_append.1 he with he | he
  · exact hs.reached e (mem_cons_of_mem _ he) z hz hzR.1
  · obtain ⟨c, hc, rfl⟩ := mem_extend.1 he
    rcases mem_cons.1 hz with rfl | hz
    · exact hzR.2 hc
    · exact hs.reached _ mem_cons_self z hz hzR.1

-- The new items follow the old ones: the routes of the old ones lead out of identifiers done
-- before `x`, the new ones out of `x`.
theorem Searching.step_sorted :
    ((Q ++ extend p (m.fresh R x)).map fun e => e.2.reverse).Pairwise (Shortlex (· < ·)) := by
  have hsorted := hs.sorted
  rw [map_cons, pairwise_cons] at hsorted
  rw [map_append, pairwise_append]
  refine ⟨hsorted.2, ?_, ?_⟩
  · simp only [extend, List.map_map, Function.comp_def, reverse_cons, pairwise_map]
    exact (pairwise_fresh m R x).imp (Text.shortlex_append_singleton _)
  · intro a ha b hb
    obtain ⟨e, he, rfl⟩ := mem_map.1 ha
    obtain ⟨e', he', rfl⟩ := mem_map.1 hb
    obtain ⟨c, -, rfl⟩ := mem_extend.1 he'
    rw [reverse_cons]
    exact Text.shortlex_append_of_dropLast (hs.route e (mem_cons_of_mem _ he)).ne_nil
      (hs.parents _ rfl e (mem_cons_of_mem _ he))

theorem Searching.step_after :
    ∀ h ∈ Q ++ extend p (m.fresh R x), Shortlex (· < ·) p.reverse h.2.reverse := by
  intro h hh
  rcases mem_append.1 hh with hh | hh
  · have hsorted := hs.sorted
    rw [map_cons, pairwise_cons] at hsorted
    exact hsorted.1 _ (mem_map_of_mem hh)
  · obtain ⟨c, -, rfl⟩ := mem_extend.1 hh
    rw [reverse_cons]
    exact Text.shortlex_append_singleton_self _ _

theorem Searching.step_parents : ∀ h ∈ (Q ++ extend p (m.fresh R x)).head?,
    ∀ e ∈ Q ++ extend p (m.fresh R x), Shortlex (· < ·) e.2.reverse.dropLast h.2.reverse := by
  intro h hh e he
  have hx := hs.step_after h (mem_of_mem_head? hh)
  rcases mem_append.1 he with he | he
  · exact Text.shortlex_trans (hs.parents _ rfl e (mem_cons_of_mem _ he)) hx
  · obtain ⟨c, -, rfl⟩ := mem_extend.1 he
    rwa [reverse_cons, dropLast_concat]

theorem Searching.step_expanded :
    ∀ a ∈ x :: D, ∀ b, m.Rel a b → b ∉ without R (m.fresh R x) := by
  intro a ha b hab hb
  rw [mem_without] at hb
  rcases mem_cons.1 ha with rfl | ha
  · exact hb.2 (mem_fresh.2 ⟨hab, hb.1⟩)
  · exact hs.expanded a ha b hab hb.1

theorem Searching.step_found : ∀ y, (y ∈ m.members ∧ y ∉ without R (m.fresh R x)) ∨ y = s →
    y ∈ x :: D ∨ ∃ e ∈ Q ++ extend p (m.fresh R x), e.1 = y := by
  intro y hy
  by_cases hc : y ∈ m.fresh R x
  · exact .inr ⟨(y, y :: p), mem_append_right _ (mem_extend.2 ⟨y, hc, rfl⟩), rfl⟩
  have hy : (y ∈ m.members ∧ y ∉ R) ∨ y = s := by
    rcases hy with ⟨hm, hR⟩ | h
    · exact .inl ⟨hm, fun h => hR (mem_without.2 ⟨h, hc⟩)⟩
    · exact .inr h
  rcases hs.found y hy with h | ⟨e, he, rfl⟩
  · exact .inl (mem_cons_of_mem _ h)
  rcases mem_cons.1 he with rfl | he
  · exact .inl mem_cons_self
  · exact .inr ⟨e, mem_append_left _ he, rfl⟩

-- An identifier with a route before the new first item is done: by induction along the route,
-- it has been reached, and on the queue it would not come after the first item.
theorem Searching.step_below : ∀ h ∈ (Q ++ extend p (m.fresh R x)).head?, ∀ y q,
    m.Route s y q → Shortlex (· < ·) q h.2.reverse → y ∈ x :: D := by
  intro h hh y q hq hlt
  have done_of_reached : ∀ y q, m.Route s y q → Shortlex (· < ·) q h.2.reverse →
      (y ∈ m.members ∧ y ∉ without R (m.fresh R x)) ∨ y = s → y ∈ x :: D := by
    intro y q hq hlt hy
    rcases hs.step_found y hy with hy | ⟨e, he, rfl⟩
    · exact hy
    · exact (Text.not_shortlex_of_le_of_le (head_le_of_sorted hs.step_sorted hh he)
        (hs.step_least e he q hq) hlt).elim
  refine hq.induction (P := fun q y => Shortlex (· < ·) q h.2.reverse → y ∈ x :: D)
    (fun hlt => done_of_reached s [s] route_single hlt (.inr rfl)) ?_ hlt
  intro q a y hq' hay ih hlt
  have ha := ih (Text.shortlex_trans (Text.shortlex_append_singleton_self q y) hlt)
  exact done_of_reached y (q ++ [y]) (hq'.snoc hay) hlt
    (.inl ⟨mem_members_of_mem_find hay, hs.step_expanded a ha y hay⟩)

-- Taking `x` off the queue, when it is not the target, keeps the search's invariant.
theorem Searching.step (hxt : x ≠ t) :
    Searching m s t (without R (m.fresh R x)) (Q ++ extend p (m.fresh R x)) (x :: D) where
  route := hs.step_route
  least := hs.step_least
  nodup := hs.step_nodup
  reached := hs.step_reached
  sorted := hs.step_sorted
  parents := hs.step_parents
  source := fun h => hs.source (mem_without.1 h).1
  below := hs.step_below
  expanded := hs.step_expanded
  found := hs.step_found
  target := fun h => (mem_cons.1 h).elim (fun h => hxt h.symm) hs.target

end Step

-- With the queue empty, everything reachable from `s` is done.
theorem Searching.mem_done {R D : List Text} (hs : Searching m s t R [] D)
    (hq : m.Route s y q) : y ∈ D := by
  have found : ∀ y, (y ∈ m.members ∧ y ∉ R) ∨ y = s → y ∈ D := fun y hy =>
    (hs.found y hy).resolve_right (by simp)
  refine hq.induction (P := fun _ y => y ∈ D) (found s (.inr rfl)) ?_
  intro q a y _ hay ha
  exact found y (.inl ⟨mem_members_of_mem_find hay, hs.expanded a ha y hay⟩)

-- From any state of the invariant, a target with a route is found, with its least route.
theorem Searching.search_eq {R D : List Text} {Q : List (Text × List Text)}
    (hs : Searching m s t R Q D) (ht : ∃ q, m.Route s t q) :
    ∃ p, m.search t R Q = some p ∧ m.Route s t p ∧ p.Nodup ∧
      ∀ q, m.Route s t q → p = q ∨ Shortlex (· < ·) p q := by
  fun_induction m.search t R Q generalizing D with
  | case1 R =>
    obtain ⟨q, hq⟩ := ht
    exact absurd (hs.mem_done hq) hs.target
  | case2 R path Q =>
    exact ⟨path.reverse, rfl, hs.route _ mem_cons_self,
      List.nodup_reverse.2 (hs.nodup _ mem_cons_self), hs.least _ mem_cons_self⟩
  | case3 R x path Q hx hfresh ih =>
    -- nothing new under `x`: the step leaves `remaining` and the rest of the queue
    have step := hs.step hx
    simp only [hfresh, without, extend, List.map_nil, List.append_nil, List.contains_nil,
      Bool.not_false, List.filter_true] at step
    exact ih step
  | case4 R x path Q hx hfresh _ ih => exact ih (hs.step hx)

theorem shortestPath_least (h : ∃ q, m.Route s t q) :
    ∃ p, m.shortestPath s t = some p ∧ m.Route s t p ∧ p.Nodup ∧
      ∀ q, m.Route s t q → p = q ∨ Shortlex (· < ·) p q :=
  searching_start.search_eq h

end Adjacency

namespace Graph

variable {g : Graph} {sc : Scheme} {u d : Text}

theorem cycleThrough_least (h : TransGen g.Edge d u) :
    ∃ p, g.cycleThrough u d = p ++ [d] ∧ g.down.Route d u p ∧ p.Nodup ∧
      ∀ q, g.down.Route d u q → p = q ∨ Shortlex (· < ·) p q := by
  obtain ⟨p, hp, hleast⟩ :=
    Adjacency.shortestPath_least (Adjacency.route_of_reflTransGen (m := g.down) h.to_reflTransGen)
  exact ⟨p, by simp [cycleThrough, hp], hleast⟩

theorem apply_register_link (hg : g.Wellformed sc) (hu : sc.isValid (.str u) = true)
    (hd : sc.isValid (.str d) = true) (hne : u ≠ d) (hnot : ¬TransGen g.Edge d u) :
    g.apply sc (.register (.str u) (.str d)) = g.link u d := by
  simp [Graph.apply, hg.register_link hu hd hne hnot]

theorem register_names_least_cycle (cs : List Change) (hu : sc.isValid (.str u) = true)
    (hd : sc.isValid (.str d) = true) (hne : u ≠ d) (hdu : TransGen (ofChanges sc cs).Edge d u) :
    let g := ofChanges sc cs
    ∃ path, g.register sc (.str u) (.str d) = .error (.cyclicDependency u d (path ++ [d])) ∧
      g.down.Route d u path ∧ path.Nodup ∧
      (∀ q, g.down.Route d u q →
        path.length ≤ q.length ∧ (q.length = path.length → path = q ∨ Lex (· < ·) path q)) ∧
      path ++ [d] ≠ [u, d] ∧
      (Fault.cyclicDependency u d (path ++ [d])).message =
        Text.ofString "Cyclic dependency detected: " ++ Text.intercalate " -> " (path ++ [d]) := by
  intro g
  have hg : g.Wellformed sc := wellformed_ofChanges sc cs
  obtain ⟨path, hcycle, hroute, hnodup, hleast⟩ := cycleThrough_least hdu
  refine ⟨path, ?_, hroute, hnodup, ?_, ?_, rfl⟩
  · rw [hg.register_cycle hu hd hne hdu, hcycle]
  · -- the least route in the order by length, then item by item
    intro q hq
    rcases hleast q hq with rfl | h
    · exact ⟨le_refl _, fun _ => .inl rfl⟩
    rcases shortlex_def.1 h with h | ⟨e, l⟩
    · exact ⟨h.le, fun e => absurd e (by omega)⟩
    · exact ⟨e.le, fun _ => .inr l⟩
  · -- the pair would be a route of `u` alone, which starts at `u`, not `d`
    intro h
    obtain rfl : path = [u] := (append_left_inj [d]).1 h
    exact hne (by simpa using hroute.1)

theorem register_names_least_cycle_sample :
    let g := ofChanges .standard [.register (.str "MID:a") (.str "MID:b")]
    let u : Text := "MID:b"
    let d : Text := "MID:a"
    Scheme.standard.isValid (.str u) = true ∧ Scheme.standard.isValid (.str d) = true ∧ u ≠ d ∧
      TransGen g.Edge d u ∧
      ∃ path, g.register .standard (.str u) (.str d) = .error (.cyclicDependency u d (path ++ [d])) ∧
        g.down.Route d u path ∧ path.Nodup ∧
        (∀ q, g.down.Route d u q →
          path.length ≤ q.length ∧ (q.length = path.length → path = q ∨ Lex (· < ·) path q)) ∧
        path ++ [d] ≠ [u, d] ∧
        (Fault.cyclicDependency u d (path ++ [d])).message =
          Text.ofString "Cyclic dependency detected: " ++ Text.intercalate " -> " (path ++ [d]) := by
  intro g u d
  have hu : Scheme.standard.isValid (.str u) = true := by decide
  have hd : Scheme.standard.isValid (.str d) = true := by decide
  have hne : u ≠ d := by decide
  -- the empty graph has no route back, so the first registration adds its edge
  have hnot : ¬TransGen empty.Edge u d := fun h => by
    obtain ⟨_, h, -⟩ := TransGen.head'_iff.1 h
    simp [Edge, downstreamOf, empty] at h
  have hg : g = empty.link d u := apply_register_link wellformed_empty hd hu (Ne.symm hne) hnot
  have hdu : TransGen g.Edge d u := hg ▸ .single (edge_link.2 (.inl ⟨rfl, rfl⟩))
  exact ⟨hu, hd, hne, hdu, register_names_least_cycle _ hu hd hne hdu⟩

end Graph

end Invalidation
