import Invalidation.Proofs.Wellformed
import Mathlib.Data.Set.Card

namespace Invalidation

-- A list ordered by a relation that never holds both ways has no repeats.
theorem nodup_of_pairwise_asymm {α : Type} {r : α → α → Prop} (asymm : ∀ a b, r a b → ¬r b a)
    {l : List α} (hl : l.Pairwise r) : l.Nodup := by
  refine hl.imp ?_
  intro a b hab he
  subst he
  exact asymm a a hab hab

-- Lists ordered by such a relation hold their members in one order only.
theorem pairwise_eq_of_mem_iff {α : Type} {r : α → α → Prop} (asymm : ∀ a b, r a b → ¬r b a)
    {l₁ l₂ : List α} (h₁ : l₁.Pairwise r) (h₂ : l₂.Pairwise r) (h : ∀ a, a ∈ l₁ ↔ a ∈ l₂) :
    l₁ = l₂ :=
  List.Perm.eq_of_pairwise (fun a b _ _ hab hba => (asymm a b hab hba).elim) h₁ h₂
    ((List.perm_ext_iff_of_nodup (nodup_of_pairwise_asymm asymm h₁)
      (nodup_of_pairwise_asymm asymm h₂)).2 h)

-- A list without repeats has as many members as items.
theorem ncard_mem_of_nodup {α : Type} {l : List α} (h : l.Nodup) : {x | x ∈ l}.ncard = l.length := by
  classical
  have hs : {x | x ∈ l} = (l.toFinset : Set α) := by
    ext x
    simp
  rw [hs, Set.ncard_coe_finset, List.toFinset_card_of_nodup h]

theorem Text.lt_asymm {a b : Text} (h : a < b) : ¬b < a := fun h' =>
  Text.lt_irrefl a (Text.lt_trans h h')

namespace IdSet

variable {s t : IdSet} {x : Text}

theorem nodup (s : IdSet) : s.toList.Nodup :=
  nodup_of_pairwise_asymm (fun _ _ => Text.lt_asymm) s.sorted

theorem ext_mem (h : ∀ x, x ∈ s ↔ x ∈ t) : s = t :=
  ext (pairwise_eq_of_mem_iff (fun _ _ => Text.lt_asymm) s.sorted t.sorted h)

theorem eq_empty_of_forall_not_mem (h : ∀ x, x ∉ s) : s = empty :=
  ext_mem fun x => by simp [h x]

-- The size of a set is the number of its members.
theorem ncard_mem (s : IdSet) : {x | x ∈ s}.ncard = s.size :=
  ncard_mem_of_nodup s.nodup

end IdSet

namespace Adjacency

variable {m m' : Adjacency} {k : Text} {s : IdSet}

-- In a populated index, the entries are the keys with what `find` reads under them, when that
-- is not empty.
theorem mem_entries_iff (hm : m.Populated) : (k, s) ∈ m.entries ↔ m.find k = s ∧ s.toList ≠ [] := by
  constructor
  · intro h
    exact ⟨find_eq_of_mem h, hm _ h⟩
  · rintro ⟨rfl, hs⟩
    by_cases h : ∃ e ∈ m.entries, e.1 = k
    · obtain ⟨⟨k', s'⟩, he, rfl⟩ := h
      rwa [find_eq_of_mem he]
    · rw [find_eq_empty fun e he hk => h ⟨e, he, hk⟩] at hs
      exact absurd rfl hs

-- A populated index is fixed by what it finds under each key.
theorem ext_find (hm : m.Populated) (hm' : m'.Populated) (h : ∀ k, m.find k = m'.find k) :
    m = m' := by
  have entries : m.entries = m'.entries :=
    pairwise_eq_of_mem_iff (fun _ _ => Text.lt_asymm) m.sorted m'.sorted fun ⟨k, s⟩ => by
      rw [mem_entries_iff hm, mem_entries_iff hm', h k]
  cases m
  cases m'
  simpa using entries

-- The keys of a populated index are those with a member under them.
theorem mem_keys (hm : m.Populated) : k ∈ m.keys ↔ ∃ x, x ∈ m.find k := by
  constructor
  · intro hk
    obtain ⟨⟨k', s⟩, he, rfl⟩ := List.mem_map.1 hk
    obtain ⟨x, hx⟩ := List.exists_mem_of_ne_nil _ (hm _ he)
    exact ⟨x, mem_find_iff.2 ⟨s, he, hx⟩⟩
  · rintro ⟨x, hx⟩
    obtain ⟨s, he, -⟩ := mem_find_iff.1 hx
    exact List.mem_map.2 ⟨(k, s), he, rfl⟩

end Adjacency

namespace Graph

variable {g g' : Graph} {sc : Scheme}

-- A well-formed graph is fixed by its edges: the index downstream is, and through the mirror the
-- index of dependencies is too.
theorem Wellformed.ext (hg : g.Wellformed sc) (hg' : g'.Wellformed sc)
    (h : ∀ u d, g.Edge u d ↔ g'.Edge u d) : g = g' := by
  have down : g.down = g'.down :=
    Adjacency.ext_find hg.down_populated hg'.down_populated fun u => IdSet.ext_mem (h u)
  have up : g.up = g'.up :=
    Adjacency.ext_find hg.up_populated hg'.up_populated fun d => IdSet.ext_mem fun u => by
      show u ∈ g.dependenciesOf d ↔ u ∈ g'.dependenciesOf d
      rw [← hg.mirrored, ← hg'.mirrored]
      exact h u d
  cases g
  cases g'
  simp_all

end Graph

end Invalidation
