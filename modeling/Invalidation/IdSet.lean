import Invalidation.Text.Basic

namespace Invalidation

-- A finite set of identifiers, as the increasing list of its members.
structure IdSet where
  toList : List Text
  sorted : toList.Pairwise (· < ·)

namespace IdSet

def insertSorted (a : Text) : List Text → List Text
  | [] => [a]
  | b :: bs => if a < b then a :: b :: bs else if a = b then b :: bs else b :: insertSorted a bs

theorem mem_insertSorted {a x : Text} {l : List Text} :
    x ∈ insertSorted a l ↔ x = a ∨ x ∈ l := by
  induction l with
  | nil => simp [insertSorted]
  | cons b bs ih =>
    unfold insertSorted
    split
    · simp
    · split
      · next h => subst h; simp only [List.mem_cons]; constructor <;> intro h <;> rcases h with h | h <;> simp_all
      · simp only [List.mem_cons, ih]
        constructor <;> intro h <;> rcases h with h | h | h <;> simp_all

theorem pairwise_insertSorted (a : Text) :
    ∀ {l : List Text}, l.Pairwise (· < ·) → (insertSorted a l).Pairwise (· < ·)
  | [], _ => List.pairwise_singleton _ _
  | b :: bs, h => by
    unfold insertSorted
    split
    · next hab =>
      refine List.Pairwise.cons ?_ h
      intro x hx
      rcases List.mem_cons.1 hx with rfl | hx
      · exact hab
      · exact Text.lt_trans hab (List.rel_of_pairwise_cons h hx)
    · split
      · exact h
      · next hab hne =>
        have hba := Text.lt_of_not_lt_of_ne hab hne
        rw [List.pairwise_cons] at h
        refine List.Pairwise.cons ?_ (pairwise_insertSorted a h.2)
        intro x hx
        rcases mem_insertSorted.1 hx with rfl | hx
        · exact hba
        · exact h.1 x hx

def empty : IdSet := ⟨[], .nil⟩

instance : EmptyCollection IdSet := ⟨empty⟩

instance : Membership Text IdSet := ⟨fun s a => a ∈ s.toList⟩

instance (a : Text) (s : IdSet) : Decidable (a ∈ s) := inferInstanceAs (Decidable (a ∈ s.toList))

def contains (s : IdSet) (a : Text) : Bool := s.toList.contains a

def size (s : IdSet) : Nat := s.toList.length

def isEmpty (s : IdSet) : Bool := s.toList.isEmpty

def insert (s : IdSet) (a : Text) : IdSet := ⟨insertSorted a s.toList, pairwise_insertSorted a s.sorted⟩

def erase (s : IdSet) (a : Text) : IdSet := ⟨s.toList.filter (· != a), s.sorted.filter _⟩

def ofList (l : List Text) : IdSet := l.foldl insert empty

def union (s t : IdSet) : IdSet := t.toList.foldl insert s

theorem mem_def {s : IdSet} {a : Text} : a ∈ s ↔ a ∈ s.toList := Iff.rfl

theorem contains_iff {s : IdSet} {a : Text} : s.contains a = true ↔ a ∈ s := by
  simp [contains, mem_def]

@[simp] theorem not_mem_empty (a : Text) : ¬ a ∈ empty := by
  simp [mem_def, empty]

@[simp] theorem mem_insert {s : IdSet} {a x : Text} : x ∈ s.insert a ↔ x = a ∨ x ∈ s :=
  mem_insertSorted

@[simp] theorem mem_erase {s : IdSet} {a x : Text} : x ∈ s.erase a ↔ x ∈ s ∧ x ≠ a := by
  simp [erase, mem_def]

theorem ext {s t : IdSet} (h : s.toList = t.toList) : s = t := by
  cases s; cases t; simp_all

end IdSet

end Invalidation
