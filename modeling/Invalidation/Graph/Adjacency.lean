import Invalidation.IdSet

namespace Invalidation

-- A map from identifiers to nonempty sets of identifiers, listed by increasing key.
structure Adjacency where
  entries : List (Text × IdSet)
  sorted : entries.Pairwise (fun a b => a.1 < b.1)

namespace Adjacency

def putSorted (k : Text) (s : IdSet) : List (Text × IdSet) → List (Text × IdSet)
  | [] => [(k, s)]
  | e :: es =>
    if k < e.1 then (k, s) :: e :: es
    else if k = e.1 then (k, s) :: es
    else e :: putSorted k s es

theorem key_mem_putSorted {k : Text} {s : IdSet} {l : List (Text × IdSet)}
    {e : Text × IdSet} (h : e ∈ putSorted k s l) : e.1 = k ∨ ∃ e' ∈ l, e'.1 = e.1 := by
  induction l with
  | nil => simp [putSorted] at h; simp [h]
  | cons b bs ih =>
    unfold putSorted at h
    split at h
    · rcases List.mem_cons.1 h with rfl | h
      · simp
      · exact .inr ⟨e, h, rfl⟩
    · split at h
      · rcases List.mem_cons.1 h with rfl | h
        · simp
        · exact .inr ⟨e, List.mem_cons_of_mem _ h, rfl⟩
      · rcases List.mem_cons.1 h with rfl | h
        · exact .inr ⟨e, List.mem_cons_self, rfl⟩
        · rcases ih h with h | ⟨e', he', hk⟩
          · exact .inl h
          · exact .inr ⟨e', List.mem_cons_of_mem _ he', hk⟩

theorem pairwise_putSorted (k : Text) (s : IdSet) :
    ∀ {l : List (Text × IdSet)}, l.Pairwise (fun a b => a.1 < b.1) →
      (putSorted k s l).Pairwise (fun a b => a.1 < b.1)
  | [], _ => List.pairwise_singleton _ _
  | b :: bs, h => by
    unfold putSorted
    split
    · next hkb =>
      refine List.Pairwise.cons ?_ h
      intro x hx
      rcases List.mem_cons.1 hx with rfl | hx
      · exact hkb
      · exact Text.lt_trans hkb (List.rel_of_pairwise_cons h hx)
    · split
      · next hkb =>
        rw [List.pairwise_cons] at h ⊢
        refine ⟨fun x hx => ?_, h.2⟩
        rw [hkb]; exact h.1 x hx
      · next hkb hne =>
        have hbk := Text.lt_of_not_lt_of_ne hkb hne
        rw [List.pairwise_cons] at h
        refine List.Pairwise.cons ?_ (pairwise_putSorted k s h.2)
        intro x hx
        rcases key_mem_putSorted hx with hx | ⟨e', he', hk⟩
        · rw [hx]; exact hbk
        · rw [← hk]; exact h.1 e' he'

def empty : Adjacency := ⟨[], .nil⟩

def find (m : Adjacency) (k : Text) : IdSet :=
  match m.entries.find? (·.1 == k) with
  | some e => e.2
  | none => IdSet.empty

def erase (m : Adjacency) (k : Text) : Adjacency :=
  ⟨m.entries.filter (·.1 != k), m.sorted.filter _⟩

def put (m : Adjacency) (k : Text) (s : IdSet) : Adjacency :=
  if s.isEmpty then m.erase k else ⟨putSorted k s m.entries, pairwise_putSorted k s m.sorted⟩

def keys (m : Adjacency) : List Text := m.entries.map (·.1)

def add (m : Adjacency) (k v : Text) : Adjacency := m.put k ((m.find k).insert v)

def remove (m : Adjacency) (k v : Text) : Adjacency := m.put k ((m.find k).erase v)

def total (m : Adjacency) : Nat := m.entries.foldr (fun e n => e.2.size + n) 0

end Adjacency

end Invalidation
