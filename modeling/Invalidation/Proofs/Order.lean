import Invalidation.Proofs.Frame
import Invalidation.Proofs.Scheme

namespace Invalidation

namespace Call

variable {u : Text} {r : Registry} {xs : List Text} {os : List Listener} {cs c₁ c₂ c₃ : List Call}

@[simp] theorem told_append (cs ds : List Call) : told (cs ++ ds) = told cs ++ told ds :=
  List.filterMap_append

theorem Told.sublist (ht : Told u xs r cs) : (told cs).Sublist xs := by
  rw [ht.told_eq]
  exact List.take_sublist _ _

-- Over an increasing list, a primary phase tells about each identifier at most once.
theorem Told.nodup (ht : Told u xs r cs) (hx : xs.Pairwise (· < ·)) : (told cs).Nodup := by
  refine (List.Pairwise.sublist ht.sublist hx).imp ?_
  intro a b hab he
  subst he
  exact Text.lt_irrefl a hab

-- A primary phase over the members of a set, less some identifiers and the changed one, tells
-- about each member at most once and about none of those.
theorem Told.filtered {s : IdSet} {ys : List Text}
    (ht : Told u (s.toList.filter fun x => !(ys.contains x || x == u)) r cs) :
    (told cs).Nodup ∧ ∀ x ∈ told cs, x ∉ ys ∧ x ≠ u := by
  refine ⟨ht.nodup (s.sorted.filter _), fun x hx => ?_⟩
  have kept := (List.mem_filter.1 (ht.sublist.subset hx)).2
  simpa using kept

-- The observer phase tells about no downstream identifier.
theorem Observed.told_eq (ho : Observed u os cs) : told cs = [] :=
  List.filterMap_eq_nil_iff.2 fun c hc => (ho.changed c hc).2

-- The direct phase tells about each downstream identifier at most once, and never about the
-- changed identifier when it is not downstream of itself.
theorem Phases.told_direct {res : Except Fault Unit} (hp : Phases u r c₁ c₂ c₃ res)
    (hu : u ∉ r.graph.downstreamOf u) : (told c₁).Nodup ∧ u ∉ told c₁ := by
  cases hpr : r.roster.primary with
  | none =>
    rw [(hp.unowned hpr).1]
    exact ⟨List.nodup_nil, List.not_mem_nil⟩
  | some p =>
    have direct := hp.direct (by simp [hpr])
    exact ⟨direct.nodup (r.graph.downstreamOf u).sorted, fun h => hu (direct.sublist.subset h)⟩

-- Once the direct phase returned, the class phase adds identifiers the direct phase did not tell
-- about, each once, and never the changed one.
theorem Phases.told_primary {res : Except Fault Unit} (hp : Phases u r c₁ c₂ c₃ res)
    (hu : u ∉ r.graph.downstreamOf u) (ok₁ : ∀ c ∈ c₁, c.outcome = .ok ()) :
    (told (c₁ ++ c₂)).Nodup ∧ u ∉ told (c₁ ++ c₂) := by
  obtain ⟨nodup₁, u₁⟩ := hp.told_direct hu
  -- the class phase, when it runs, skips what the direct phase told and the changed identifier
  have class₂ : (told c₂).Nodup ∧ ∀ x ∈ told c₂, x ∉ told c₁ ∧ x ≠ u := by
    cases hpr : r.roster.primary with
    | none =>
      rw [(hp.unowned hpr).2]
      simp [told]
    | some p =>
      have hsome : r.roster.primary.isSome := by simp [hpr]
      cases hcl : r.scheme.isClassLevel u with
      | true =>
        rw [hp.classLevel hcl]
        simp [told]
      | false =>
        cases hv : r.scheme.isValid (.str (r.scheme.classOf u)) with
        | false =>
          rw [(hp.invalidClass hsome hcl hv ok₁).1]
          simp [told]
        | true => exact (hp.viaClass hsome hcl hv ok₁).filtered
  rw [told_append, List.nodup_append, List.mem_append, not_or]
  exact ⟨⟨nodup₁, class₂.1, fun a ha b hb hab => (class₂.2 b hb).1 (hab ▸ ha)⟩, u₁,
    fun h => (class₂.2 u h).2 rfl⟩

-- Once the primary phases returned, the observers are told about no downstream identifier, or not
-- told at all.
theorem Phases.told_observers {res : Except Fault Unit} (hp : Phases u r c₁ c₂ c₃ res)
    (hok : ∀ c ∈ c₁ ++ c₂, c.outcome = .ok ()) : told c₃ = [] := by
  by_cases told : r.roster.primary = none ∨ r.scheme.isClassLevel u = true ∨
      r.scheme.isValid (.str (r.scheme.classOf u)) = true
  · exact (hp.observers hok told).told_eq
  · simp only [not_or, Bool.not_eq_true] at told
    obtain ⟨hpr, hcl, hv⟩ := told
    rw [(hp.invalidClass (Option.ne_none_iff_isSome.1 hpr) hcl hv
      fun c h => hok c (List.mem_append_left _ h)).2.1]
    rfl

-- A run whose calls ended with a failed one made no call after it.
theorem Ends.nil_of_failed {α : Type} {xs ys : List Call} {res : Except Fault α}
    (he : Ends (xs ++ ys) res) (hf : ¬∀ c ∈ xs, c.outcome = .ok ()) : ys = [] := by
  by_contra hne
  refine hf fun c hc => he.1 c ?_
  rw [List.dropLast_append_of_ne_nil hne]
  exact List.mem_append_left _ hc

-- Whichever call failed, a notification tells about each downstream identifier at most once, and
-- never about the changed identifier when it is not downstream of itself.
theorem Phases.told_nodup {res : Except Fault Unit} (hp : Phases u r c₁ c₂ c₃ res)
    (he : Ends (c₁ ++ c₂ ++ c₃) res) (hu : u ∉ r.graph.downstreamOf u) :
    (told (c₁ ++ c₂ ++ c₃)).Nodup ∧ u ∉ told (c₁ ++ c₂ ++ c₃) := by
  by_cases hok : ∀ c ∈ c₁ ++ c₂, c.outcome = .ok ()
  · rw [told_append, hp.told_observers hok, List.append_nil]
    exact hp.told_primary hu fun c h => hok c (List.mem_append_left _ h)
  -- a call of the primary phases failed, and was the last call
  obtain rfl : c₃ = [] := he.nil_of_failed hok
  rw [List.append_nil] at he ⊢
  by_cases hok₁ : ∀ c ∈ c₁, c.outcome = .ok ()
  · exact hp.told_primary hu hok₁
  · obtain rfl : c₂ = [] := he.nil_of_failed hok₁
    rw [List.append_nil]
    exact hp.told_direct hu

end Call

namespace Run

variable {σ : Type} {react : Reaction σ}

-- With listeners that keep the registry, the calls a notification let in makes itself, phase by
-- phase, the last of them perhaps failed; it tells about each downstream identifier at most once,
-- never about the changed one.
theorem notify_tells_in_phase_order_of_keeps (hk : ∀ l u d, Keeps (react l u d))
    (h : Host (σ × List Call)) (hs : h.registry.Sound) {v : Json} {u : Text}
    (hv : h.registry.scheme.requireValid v "upstream" = .ok u)
    (ha : h.registry.admitsAt h.registry.depth) :
    let p := (notify (tap react) v).exec h
    ∃ c₁ c₂ c₃, p.2.own.2 = h.own.2 ++ (c₁ ++ c₂ ++ c₃) ∧ Call.Ends (c₁ ++ c₂ ++ c₃) p.1 ∧
      Call.Phases u h.registry c₁ c₂ c₃ p.1 ∧
      (Call.told (c₁ ++ c₂ ++ c₃)).Nodup ∧ u ∉ Call.told (c₁ ++ c₂ ++ c₃) := by
  intro p
  obtain ⟨c₁, c₂, c₃, recorded, -, -, -, -, ends, ph⟩ := made_notify hk hs hv ha
  -- the graph has no self-edge
  exact ⟨c₁, c₂, c₃, recorded, ends, ph, ph.told_nodup ends (hs.graph.irreflexive u)⟩

end Run

end Invalidation
